import GpuiAgent.Framework.Result
import GpuiAgent.Todo.StaleTarget

namespace GpuiAgent

open Framework Framework.RoseTree

/-- A character that a virtual `type` has a keystroke for. -/
def Typeable (ch : Char) : Prop :=
  ch = ' ' ∨ ch = '\n' ∨ ch = '\t' ∨ (0x21 ≤ ch.toNat ∧ ch.toNat ≤ 0x7e)

instance (ch : Char) : Decidable (Typeable ch) := inferInstanceAs (Decidable (_ ∨ _))

/-- The keys that a virtual `key` knows by name. -/
def namedKeys : List String :=
  ["enter", "return", "backspace", "tab", "escape", "esc", "space", " ", "delete", "del"]

/-- A key that a virtual `key` has a keystroke for. -/
def Pressable (key : String) : Prop :=
  (trim key).isEmpty = false ∧ looksLikeModifierChord (trim key) = false ∧
    (toAsciiLowercase (trim key) ∈ namedKeys ∨ (toAsciiLowercase (trim key)).length = 1)

/-- A node that can be clicked: the only one of its id, with an area on screen. -/
def Clickable (tree : UiTree) (target : String) : Prop :=
  ∃ n, tree.findAll target = [n] ∧ n.label.bounds.hasArea = true

theorem planClick_isOk_iff (tree : UiTree) (target : String) :
    (∃ plan, planClick tree target = .ok plan) ↔ Clickable tree target := by
  unfold planClick Clickable UiTree.requireId
  split
  next h =>
    refine iff_of_false ?_ ?_
    · intro ⟨plan, hplan⟩
      cases hplan
    · intro ⟨n, hn, _⟩
      rw [h] at hn
      cases hn
  next n h =>
    have hn : ∀ m, [n] = [m] ↔ n = m := fun m => by simp
    rw [h]
    simp only [hn, exists_eq_left']
    cases harea : n.label.bounds.hasArea with
    | true =>
      refine iff_of_true ⟨⟨target, n.label.bounds.center.1, n.label.bounds.center.2⟩, ?_⟩ rfl
      simp [bind, Except.bind, pure, Except.pure, hitPoint, harea]
    | false =>
      refine iff_of_false ?_ Bool.false_ne_true
      intro ⟨plan, hplan⟩
      simp [bind, Except.bind, hitPoint, harea] at hplan
  next ns hnil hone =>
    refine iff_of_false ?_ ?_
    · intro ⟨plan, hplan⟩
      cases hplan
    · intro ⟨n, hn, _⟩
      exact hone n hn

theorem keystrokeToken_isOk_iff (key : String) :
    (∃ token, keystrokeToken key = .ok token) ↔ Pressable key := by
  unfold keystrokeToken Pressable namedKeys
  dsimp only
  cases hempty : (trim key).isEmpty with
  | true => simp
  | false =>
    cases hchord : looksLikeModifierChord (trim key) with
    | true => simp
    | false =>
      simp only [Bool.false_eq_true, if_false, true_and]
      generalize toAsciiLowercase (trim key) = lower
      split
      -- the last arm takes any other key of one character
      case h_11 => by_cases hlen : lower.length = 1 <;> simp_all
      all_goals simp

theorem textKeystrokes_isOk_iff (debugChar : Char → String) (text : String) :
    (∃ tokens, textKeystrokes debugChar text = .ok tokens) ↔ ∀ ch ∈ text.toList, Typeable ch := by
  unfold textKeystrokes
  rw [mapM_isOk_iff]
  refine forall₂_congr fun ch _ => ?_
  unfold Typeable
  split_ifs with hspace hnewline htab hgraphic <;> simp_all

namespace TodoUi

variable (win : Window) (ui : TodoUi)

/-- GPUI parses every token that the planners return. -/
def ParsesPlanned (win : Window) : Prop :=
  (∀ text tokens, textKeystrokes win.debugChar text = .ok tokens →
    ∀ token ∈ tokens, win.parseKeystroke token = .ok ()) ∧
  ∀ key token, keystrokeToken key = .ok token → win.parseKeystroke token = .ok ()

/-- The op's keystrokes can be planned, or its target cannot be clicked in the first place. -/
def Plannable : Op → Prop
  | .type target text _ _ =>
    Clickable ui.snapshotWithBounds target → ∀ ch ∈ text.toList, Typeable ch
  | .key target key _ _ => Clickable ui.snapshotWithBounds target → Pressable key
  | _ => True

/-- An op that fails has put no event into the window. -/
def Atomic (op : Op) : Prop :=
  ∀ error, (ui.dispatchVirtual win op).result = .error error →
    (ui.dispatchVirtual win op).injected = []

variable {win ui}

/-- A click fails before its first event, or it succeeds after three. -/
theorem virtualClick_cases (win : Window) (ui : TodoUi) (target : String) :
    (¬ Clickable ui.snapshotWithBounds target ∧
      ∃ error, ui.virtualClick win target = ⟨.error error, ui, []⟩) ∨
    (Clickable ui.snapshotWithBounds target ∧
      ∃ result after events, ui.virtualClick win target = ⟨.ok result, after, events⟩ ∧
        events ≠ []) := by
  rw [← planClick_isOk_iff]
  unfold virtualClick
  cases planClick ui.snapshotWithBounds target with
  | error error => exact .inl ⟨by simp, error, rfl⟩
  | ok plan => exact .inr ⟨⟨plan, rfl⟩, _, _, _, rfl, List.cons_ne_nil _ _⟩

theorem dispatchKeystrokes_ok {tokens : List String}
    (h : ∀ token ∈ tokens, win.parseKeystroke token = .ok ()) :
    ∀ ui, (dispatchKeystrokes win ui tokens).result = .ok () := by
  induction tokens with
  | nil => exact fun _ => rfl
  | cons token tokens ih =>
    intro ui
    obtain ⟨htoken, htokens⟩ := List.forall_mem_cons.mp h
    rw [dispatchKeystrokes, htoken]
    exact ih htokens _

/-- Clicking comes before the keystrokes are planned: a plan that fails leaves the click behind. -/
theorem virtualKeys_atomic_iff (target : String) (tokens : Except String (List String))
    (result : DispatchResult)
    (parses : ∀ ts, tokens = .ok ts → ∀ token ∈ ts, win.parseKeystroke token = .ok ()) :
    (∀ error, (ui.virtualKeys win target tokens result).result = .error error →
      (ui.virtualKeys win target tokens result).injected = []) ↔
    (Clickable ui.snapshotWithBounds target → ∃ ts, tokens = .ok ts) := by
  unfold virtualKeys
  rcases virtualClick_cases win ui target with
    ⟨hnot, error, hclick⟩ | ⟨hclickable, click, after, events, hclick, hevents⟩
  · rw [hclick]
    exact iff_of_true (fun _ _ => rfl) fun h => absurd h hnot
  · rw [hclick]
    dsimp only
    cases tokens with
    | error error =>
      refine iff_of_false (fun h => hevents (h error rfl)) ?_
      intro h
      obtain ⟨ts, hts⟩ := h hclickable
      cases hts
    | ok ts =>
      refine iff_of_true ?_ fun _ => ⟨ts, rfl⟩
      intro error herror
      have hok := dispatchKeystrokes_ok (parses ts rfl)
        (if target = ids.INPUT then { after with inputFocused := true } else after)
      dsimp only at herror
      split at herror
      next heq =>
        rw [heq] at hok
        cases hok
      next => cases herror

/-- A virtual op that fails has injected nothing, exactly where its keystrokes can be planned or its
target cannot be clicked. -/
theorem dispatchVirtual_atomic_iff (parses : ParsesPlanned win) (ui : TodoUi) (op : Op) :
    ui.Atomic win op ↔ ui.Plannable op := by
  cases op with
  | click target delivery fp =>
    refine iff_of_true ?_ trivial
    intro error herror
    rcases virtualClick_cases win ui target with ⟨-, e, heq⟩ | ⟨-, result, after, events, heq, -⟩
    · exact congrArg Virtual.injected heq
    · rw [dispatchVirtual, heq] at herror
      cases herror
  | type target text delivery fp =>
    change _ ↔ (Clickable ui.snapshotWithBounds target → ∀ ch ∈ text.toList, Typeable ch)
    rw [← textKeystrokes_isOk_iff win.debugChar]
    exact virtualKeys_atomic_iff target _ _ (parses.1 text)
  | key target key delivery fp =>
    change _ ↔ (Clickable ui.snapshotWithBounds target → Pressable key)
    rw [← keystrokeToken_isOk_iff]
    refine (virtualKeys_atomic_iff target _ _ ?_).trans ?_
    · intro ts hts token htoken
      cases hplan : keystrokeToken key with
      | error error => simp [hplan, Except.map] at hts
      | ok t =>
        obtain rfl : [t] = ts := by simpa [hplan, Except.map] using hts
        obtain rfl := List.mem_singleton.mp htoken
        exact parses.2 key token hplan
    · cases keystrokeToken key <;> simp [Except.map]
  | _ => exact iff_of_true (fun _ _ => rfl) trivial

end TodoUi

/-- Typing a letter that has no keystroke into the painted Add button. -/
def accentedType : Op := .type ids.ADD "caf\u00e9" .virtual none

theorem dispatchVirtual_atomic_iff_ascii :
    paintedApp.Atomic .bare (.type ids.ADD "cafe" .virtual none) := by
  have hall : ("cafe".toList.all fun ch => decide (Typeable ch)) = true := by decide +kernel
  exact (TodoUi.dispatchVirtual_atomic_iff ⟨fun _ _ _ _ _ => rfl, fun _ _ _ => rfl⟩ _ _).mpr
    fun _ ch hch => of_decide_eq_true (List.all_eq_true.mp hall ch hch)

/-- The click has gone through when the text is refused. -/
theorem accentedType_clicks : ¬ paintedApp.Atomic .bare accentedType := by
  intro h
  have hclicked : (paintedApp.dispatchVirtual .bare accentedType).injected.length = 3 := by
    decide +kernel
  have herror : (paintedApp.dispatchVirtual .bare accentedType).result.toOption = none := by
    decide +kernel
  cases hresult : (paintedApp.dispatchVirtual .bare accentedType).result with
  | error error => simp [h error hresult] at hclicked
  | ok result => simp [hresult, Except.toOption] at herror

end GpuiAgent
