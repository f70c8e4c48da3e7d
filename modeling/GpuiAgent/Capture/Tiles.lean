import GpuiAgent.Capture.Arithmetic
import GpuiAgent.Framework.Loop
import GpuiAgent.Framework.Result
import GpuiAgent.Framework.Slices
import GpuiAgent.Host.Screenshot
import Mathlib.Algebra.Order.Group.MinMax

namespace GpuiAgent

open Framework

def MAX_SCROLL_TILES : Nat := 32

def SCROLL_UNAVAILABLE : String := "scroll_unavailable"

def scrollUnavailable (detail : String) : String := s!"{SCROLL_UNAVAILABLE}: {detail}"

/-- Logical pixels, offset growing downwards. -/
structure ScrollMetrics where
  viewport : Bounds
  contentHeight : F32
  offsetY : F32

def ScrollMetrics.maxOffsetY (metrics : ScrollMetrics) : F32 :=
  (metrics.contentHeight.sub metrics.viewport.h).max (.finite 0)

structure TileSpec where
  offsetY : F32
  skipTopPx : F32
  takeHeightPx : F32
  deriving DecidableEq

section Plan

/-- What the loop of `plan_scroll_tiles` changes. -/
structure PlanState where
  tiles : List TileSpec
  covered : F32

def PlanState.init : PlanState := ⟨[], .finite 0⟩

variable (viewportH content maxOffset : F32)

/-- The next tile of a plan. -/
def tileAt (covered : F32) : TileSpec :=
  let offset := covered.min maxOffset
  let skipTop := (covered.sub offset).max (.finite 0)
  let remaining := content.sub covered
  ⟨offset, skipTop, (remaining.min (viewportH.sub skipTop)).min viewportH⟩

/-- A round of the loop of `plan_scroll_tiles`. -/
def planRound (s : PlanState) : PlanState ⊕ Except String (List TileSpec) :=
  if s.covered.lt (content.sub (.finite (1 / 2))) then
    if MAX_SCROLL_TILES ≤ s.tiles.length then
      .inr (.error s!"screenshot scrolled exceeds {MAX_SCROLL_TILES} tiles")
    else
      let tile := tileAt viewportH content maxOffset s.covered
      if tile.takeHeightPx.lt (.finite (1 / 2)) then .inr (.ok s.tiles)
      else .inl ⟨s.tiles ++ [tile], s.covered.add tile.takeHeightPx⟩
  else .inr (.ok s.tiles)

variable {viewportH content maxOffset} {s s' : PlanState}

/-- A round that goes on puts a tile behind the others. -/
theorem planRound_eq_inl (h : planRound viewportH content maxOffset s = .inl s') :
    let tile := tileAt viewportH content maxOffset s.covered
    s.covered.lt (content.sub (.finite (1 / 2))) = true ∧ s.tiles.length < MAX_SCROLL_TILES ∧
      s' = ⟨s.tiles ++ [tile], s.covered.add tile.takeHeightPx⟩ := by
  simp only [planRound] at h
  split_ifs at h with hguard hcap
  exact ⟨hguard, Nat.lt_of_not_le hcap, (Sum.inl.inj h).symm⟩

theorem planRound_eq_ok {tiles : List TileSpec}
    (h : planRound viewportH content maxOffset s = .inr (.ok tiles)) :
    tiles = s.tiles ∧ (s.covered.lt (content.sub (.finite (1 / 2))) = true →
      (tileAt viewportH content maxOffset s.covered).takeHeightPx.lt (.finite (1 / 2)) = true) := by
  simp only [planRound] at h
  split_ifs at h with hguard hcap hsmall
  · simp at h
  · simp only [Sum.inr.injEq, Except.ok.injEq] at h
    exact ⟨h.symm, fun _ => hsmall⟩
  · simp only [Sum.inr.injEq, Except.ok.injEq] at h
    exact ⟨h.symm, fun hguard' => absurd hguard' hguard⟩

/-- The loop comes to an end on all numbers, the infinite ones and the NaN included. -/
theorem planLoop_isSome :
    (runLoop (planRound viewportH content maxOffset) (MAX_SCROLL_TILES + 1) .init).isSome := by
  refine runLoop_isSome (fun s => MAX_SCROLL_TILES - s.tiles.length) ?_ (by simp [PlanState.init])
  intro s s' h
  obtain ⟨-, hlt, rfl⟩ := planRound_eq_inl h
  simp only [List.length_append, List.length_singleton]
  omega

variable (viewportH content maxOffset)

/-- The loop of `plan_scroll_tiles`. -/
def planLoop : Except String (List TileSpec) :=
  (runLoop (planRound viewportH content maxOffset) (MAX_SCROLL_TILES + 1) .init).get planLoop_isSome

/-- Plan content slices that do not overlap; `display` is how an `f32` is printed. -/
def planScrollTiles (display : F32 → String) (metrics : ScrollMetrics) (maxHeightPx : Nat) :
    Except String (List TileSpec) := do
  if maxHeightPx = 0 then throw "max_height_px must be > 0"
  if metrics.viewport.h.lt (.finite 1) then
    throw (scrollUnavailable "scroll target viewport height must be >= 1px")
  if metrics.contentHeight.lt (.finite 0) then
    throw (scrollUnavailable "scroll target content_height must be >= 0")
  let content := metrics.contentHeight.max metrics.viewport.h
  if (F32.finite maxHeightPx).lt content then
    throw (s!"screenshot scrolled exceeds max_height_px (content_height={display content}, " ++
      s!"max_height_px={maxHeightPx})")
  let maxOffset := (content.sub metrics.viewport.h).max (.finite 0)
  let tiles ← planLoop metrics.viewport.h content maxOffset
  if tiles.isEmpty then
    return [⟨.finite 0, .finite 0, (metrics.viewport.h.min content).max (.finite 1)⟩]
  return tiles

end Plan

/-- A tile in exact pixels. -/
structure ExactTile where
  offset : Rat
  skip : Rat
  take : Rat

namespace ExactTile

def spec (t : ExactTile) : TileSpec := ⟨.finite t.offset, .finite t.skip, .finite t.take⟩

/-- The content that a tile shows. -/
def slice (t : ExactTile) : Rat × Rat := (t.offset + t.skip, t.offset + t.skip + t.take)

/-- The offset can be scrolled to, and what is cropped lies in the viewport. -/
def Within (viewportH maxOffset : Rat) (t : ExactTile) : Prop :=
  0 ≤ t.offset ∧ t.offset ≤ maxOffset ∧ 0 ≤ t.skip ∧ t.skip + t.take ≤ viewportH

variable (viewportH content covered : Rat)

/-- The next tile of a plan for content that fills the viewport. -/
def next : ExactTile :=
  let offset := min covered (content - viewportH)
  ⟨offset, covered - offset, min (content - covered) (viewportH - (covered - offset))⟩

variable {viewportH content covered}

theorem tileAt_finite :
    tileAt (.finite viewportH) (.finite content) (.finite (content - viewportH))
      (.finite covered) = (next viewportH content covered).spec := by
  have hskip : 0 ≤ covered - min covered (content - viewportH) :=
    sub_nonneg.mpr (min_le_left _ _)
  have htake : min (content - covered)
      (viewportH - (covered - min covered (content - viewportH))) ≤ viewportH :=
    (min_le_right _ _).trans (sub_le_self _ hskip)
  simp only [tileAt, next, spec, F32.min_finite, F32.sub_finite, F32.max_finite,
    max_eq_left hskip, min_eq_left htake]

/-- The next tile begins where the content is covered to, and what it takes is the rest or a
viewport. -/
theorem next_slice (hv : 1 ≤ viewportH) (hcovered : 0 ≤ covered)
    (hle : viewportH ≤ content) (hlt : covered < content - 1 / 2) :
    let t := next viewportH content covered
    t.slice = (covered, covered + t.take) ∧ t.Within viewportH (content - viewportH) ∧
      1 / 2 < t.take ∧ covered + t.take ≤ content := by
  intro t
  have hoffset : t.offset = min covered (content - viewportH) := rfl
  have hskip : t.skip = covered - t.offset := rfl
  have htake : t.take = min (content - covered) (viewportH - t.skip) := rfl
  refine ⟨?_, ⟨?_, ?_, ?_, ?_⟩, ?_, ?_⟩
  · simp only [slice, hskip, add_sub_cancel]
  · exact hoffset ▸ le_min hcovered (sub_nonneg.mpr hle)
  · exact hoffset ▸ min_le_right _ _
  · rw [hskip, hoffset]
    exact sub_nonneg.mpr (min_le_left _ _)
  · have hright : t.take ≤ viewportH - t.skip := htake ▸ min_le_right _ _
    linarith
  · -- a skip is what the last offset stops short of, so more than half a pixel is left below it
    rw [htake, lt_min_iff]
    constructor
    · linarith
    · rw [hskip, hoffset]
      rcases min_choice covered (content - viewportH) with h | h
      · linarith only [h, hv]
      · linarith only [h, hlt]
  · have hleft : t.take ≤ content - covered := htake ▸ min_le_left _ _
    linarith

end ExactTile

section Cover

/-- Tiles that show the content from its top down to `covered`. -/
structure Planned (viewportH content : Rat) (tiles : List ExactTile) (covered : Rat) : Prop where
  abut : Abutting 0 (tiles.map ExactTile.slice) covered
  le : covered ≤ content
  within : ∀ t ∈ tiles, t.Within viewportH (content - viewportH)
  length : tiles.length ≤ MAX_SCROLL_TILES

variable {viewportH content : Rat}

theorem Planned.snoc {tiles : List ExactTile} {covered : Rat} (hv : 1 ≤ viewportH)
    (hle : viewportH ≤ content) (hlt : covered < content - 1 / 2)
    (hlen : tiles.length < MAX_SCROLL_TILES) (h : Planned viewportH content tiles covered) :
    Planned viewportH content (tiles ++ [.next viewportH content covered])
      (covered + (ExactTile.next viewportH content covered).take) := by
  obtain ⟨hslice, hwithin, htake, hend⟩ := ExactTile.next_slice hv h.abut.le hle hlt
  constructor
  · rw [List.map_append, List.map_singleton, hslice]
    exact h.abut.snoc (by linarith)
  · exact hend
  · intro t ht
    obtain ht | ht := List.mem_append.mp ht
    · exact h.within t ht
    · exact List.mem_singleton.mp ht ▸ hwithin
  · rw [List.length_append, List.length_singleton]
    omega

/-- What the rounds of the loop keep. -/
def PlanState.Sound (viewportH content : Rat) (s : PlanState) : Prop :=
  ∃ tiles covered, s = ⟨tiles.map ExactTile.spec, .finite covered⟩ ∧
    Planned viewportH content tiles covered

theorem planRound_sound (hv : 1 ≤ viewportH) (hle : viewportH ≤ content) {s s' : PlanState}
    (hs : s.Sound viewportH content)
    (h : planRound (.finite viewportH) (.finite content) (.finite (content - viewportH)) s =
      .inl s') : s'.Sound viewportH content := by
  obtain ⟨tiles, covered, rfl, hplanned⟩ := hs
  obtain ⟨hguard, hlen, rfl⟩ := planRound_eq_inl h
  simp only [F32.sub_finite, F32.lt_finite, decide_eq_true_eq, List.length_map] at hguard hlen
  refine ⟨_, _, ?_, hplanned.snoc hv hle hguard hlen⟩
  simp only [ExactTile.tileAt_finite, List.map_append, List.map_singleton]
  rfl

/-- The loop leaves less than half a pixel uncovered. -/
theorem planLoop_covers (hv : 1 ≤ viewportH) (hle : viewportH ≤ content) {tiles : List TileSpec}
    (h : planLoop (.finite viewportH) (.finite content) (.finite (content - viewportH)) =
      .ok tiles) :
    ∃ exact covered, tiles = exact.map ExactTile.spec ∧
      Planned viewportH content exact covered ∧ content - 1 / 2 ≤ covered := by
  have hinit : PlanState.init.Sound viewportH content :=
    ⟨[], 0, rfl, rfl, by linarith, fun t ht => absurd ht List.not_mem_nil, Nat.zero_le _⟩
  have hstop : ∀ (s : PlanState) (result : Except String (List TileSpec)),
      s.Sound viewportH content →
      planRound (.finite viewportH) (.finite content) (.finite (content - viewportH)) s =
        .inr result →
      ∀ tiles, result = .ok tiles → ∃ exact covered, tiles = exact.map ExactTile.spec ∧
        Planned viewportH content exact covered ∧ content - 1 / 2 ≤ covered := by
    intro s result hs hround tiles hok
    obtain ⟨exact, covered, rfl, hplanned⟩ := hs
    obtain ⟨rfl, hsmall⟩ := planRound_eq_ok (hok ▸ hround)
    refine ⟨exact, covered, rfl, hplanned, le_of_not_gt fun hlt => ?_⟩
    -- the break for a small tile is never taken
    have htake := (ExactTile.next_slice hv hplanned.abut.le hle hlt).2.2.1
    simp only [F32.sub_finite, F32.lt_finite, decide_eq_true_eq, ExactTile.tileAt_finite,
      ExactTile.spec] at hsmall
    exact lt_asymm htake (hsmall hlt)
  exact runLoop_inv (PlanState.Sound viewportH content)
    (fun s s' hs h => planRound_sound hv hle hs h) hstop hinit (Option.some_get _).symm tiles h

variable {display : F32 → String} {metrics : ScrollMetrics} {maxHeightPx : Nat}
  {tiles : List TileSpec}

/-- A viewport that is a number, and no larger than content that a cap admits, is finite. -/
theorem exists_finite_of_capped {contentHeight h : F32} (hnan : h ≠ .nan)
    (hsmall : h.lt (.finite 1) = false) {cap : Rat}
    (hcap : (F32.finite cap).lt (contentHeight.max h) = false) :
    ∃ viewportH content, h = .finite viewportH ∧ contentHeight.max h = .finite content ∧
      (contentHeight.sub h).max (.finite 0) = .finite (content - viewportH) ∧
      1 ≤ viewportH ∧ viewportH ≤ content := by
  cases h with
  | nan => exact absurd rfl hnan
  | inf negative =>
    cases negative with
    | true => simp [F32.lt] at hsmall
    | false =>
      cases contentHeight with
      | inf negative => cases negative <;> simp [F32.max, F32.lt] at hcap
      | _ => simp [F32.max, F32.lt] at hcap
  | finite viewportH =>
    have hone : 1 ≤ viewportH := by simpa using hsmall
    cases contentHeight with
    | finite q =>
      refine ⟨viewportH, Max.max q viewportH, rfl, by simp, ?_, hone, le_max_right _ _⟩
      rw [F32.sub_finite, F32.max_finite, ← max_sub_sub_right, sub_self]
    | nan =>
      exact ⟨viewportH, viewportH, rfl, by simp [F32.max], by simp [F32.max, F32.sub, F32.add],
        hone, le_rfl⟩
    | inf negative =>
      cases negative with
      | true =>
        exact ⟨viewportH, viewportH, rfl, by simp [F32.max, F32.lt],
          by simp [F32.max, F32.sub, F32.add, F32.neg, F32.lt], hone, le_rfl⟩
      | false => simp [F32.max, F32.lt] at hcap

/-- A plan is made for content that fills the viewport, and it is what the loop made: the loop
does not come back without a tile. -/
theorem planScrollTiles_eq_ok (hnan : metrics.viewport.h ≠ .nan)
    (h : planScrollTiles display metrics maxHeightPx = .ok tiles) :
    ∃ viewportH content, metrics.viewport.h = .finite viewportH ∧
      metrics.contentHeight.max metrics.viewport.h = .finite content ∧
      metrics.maxOffsetY = .finite (content - viewportH) ∧ 1 ≤ viewportH ∧ viewportH ≤ content ∧
      planLoop (.finite viewportH) (.finite content) (.finite (content - viewportH)) = .ok tiles := by
  simp only [planScrollTiles, refuse_eq_ok] at h
  obtain ⟨-, hsmall, -, hcap, h⟩ := h
  obtain ⟨viewportH, content, hh, hcontent, hoffset, hone, hle⟩ := exists_finite_of_capped hnan
    (Bool.eq_false_iff.mpr hsmall) (Bool.eq_false_iff.mpr hcap)
  refine ⟨viewportH, content, hh, hcontent, hoffset, hone, hle, ?_⟩
  rw [hcontent, hh, F32.sub_finite, F32.max_finite, max_eq_left (sub_nonneg.mpr hle)] at h
  obtain ⟨planned, hplanned, h⟩ := bind_eq_ok.mp h
  obtain ⟨exact, covered, rfl, hexact, hcovers⟩ := planLoop_covers hone hle hplanned
  cases exact with
  | nil =>
    have hcovered : 0 = covered := hexact.abut
    linarith
  | cons t rest => exact hplanned.trans h

/-- The tiles of a plan show the content in order and every row of it once, down to less than half
a pixel above its end; and the planning loop ends on every input. -/
theorem planScrollTiles_covers :
    (∀ viewportH content maxOffset : F32, ∃ result, ∀ fuel, MAX_SCROLL_TILES < fuel →
      runLoop (planRound viewportH content maxOffset) fuel .init = some result) ∧
    ∀ (display : F32 → String) (metrics : ScrollMetrics) (maxHeightPx : Nat)
      (tiles : List TileSpec), metrics.viewport.h ≠ .nan →
      planScrollTiles display metrics maxHeightPx = .ok tiles →
      ∃ (viewportH content maxOffset covered : Rat) (exact : List ExactTile),
        metrics.viewport.h = .finite viewportH ∧
        metrics.contentHeight.max metrics.viewport.h = .finite content ∧
        metrics.maxOffsetY = .finite maxOffset ∧ tiles = exact.map ExactTile.spec ∧
        Abutting 0 (exact.map ExactTile.slice) covered ∧
        content - 1 / 2 ≤ covered ∧ covered ≤ content ∧
        (exact.map ExactTile.slice).Pairwise (fun s t => s.2 ≤ t.1) ∧
        (∀ x, 0 ≤ x → x < content - 1 / 2 →
          ∃ s ∈ exact.map ExactTile.slice, s.1 ≤ x ∧ x < s.2) ∧
        (∀ t ∈ exact, 0 ≤ t.offset ∧ t.offset ≤ maxOffset ∧ t.skip + t.take ≤ viewportH) ∧
        tiles.length ≤ 32 := by
  constructor
  · intro viewportH content maxOffset
    have hends : (runLoop (planRound viewportH content maxOffset) (MAX_SCROLL_TILES + 1)
      .init).isSome := planLoop_isSome
    obtain ⟨result, hresult⟩ := Option.isSome_iff_exists.mp hends
    exact ⟨result, fun fuel hfuel => runLoop_le hresult hfuel⟩
  · intro display metrics maxHeightPx tiles hnan h
    obtain ⟨viewportH, content, hh, hcontent, hoffset, hone, hle, hloop⟩ :=
      planScrollTiles_eq_ok hnan h
    obtain ⟨exact, covered, rfl, hplanned, hcovers⟩ := planLoop_covers hone hle hloop
    refine ⟨viewportH, content, content - viewportH, covered, exact, hh, hcontent, hoffset, rfl,
      hplanned.abut, hcovers, hplanned.le, hplanned.abut.pairwise, ?_, ?_, ?_⟩
    · intro x hx hlt
      exact (hplanned.abut.exists_mem_iff x).mpr ⟨hx, hlt.trans_le hcovers⟩
    · intro t ht
      obtain ⟨hzero, hmax, -, hwithin⟩ := hplanned.within t ht
      exact ⟨hzero, hmax, hwithin⟩
    · exact (List.length_map _).trans_le hplanned.length

/-- Content of two and a half viewports takes three tiles, the last one clamped. -/
theorem planScrollTiles_covers_clamped :
    let metrics : ScrollMetrics :=
      ⟨⟨.finite 10, .finite 20, .finite 40, .finite 100⟩, .finite 250, .finite 80⟩
    let tiles : List TileSpec := [⟨.finite 0, .finite 0, .finite 100⟩,
      ⟨.finite 100, .finite 0, .finite 100⟩, ⟨.finite 150, .finite 50, .finite 50⟩]
    planScrollTiles (fun _ => "") metrics 16384 = .ok tiles ∧
      ∃ (covered : Rat) (exact : List ExactTile), tiles = exact.map ExactTile.spec ∧
        Abutting 0 (exact.map ExactTile.slice) covered ∧ 250 - 1 / 2 ≤ covered := by
  intro metrics tiles
  have hplan : planScrollTiles (fun _ => "") metrics 16384 = .ok tiles := by decide +kernel
  refine ⟨hplan, ?_⟩
  obtain ⟨viewportH, content, maxOffset, covered, exact, -, hcontent, -, htiles, habut, hcovers, -⟩ :=
    planScrollTiles_covers.2 (fun _ => "") metrics 16384 tiles (by decide) hplan
  have heq : (250 : Rat) = content := by
    have hmax : max (250 : Rat) 100 = 250 := max_eq_left (by norm_num)
    rwa [F32.max_finite, hmax, F32.finite.injEq] at hcontent
  exact ⟨covered, exact, htiles, habut, heq ▸ hcovers⟩

end Cover

end GpuiAgent
