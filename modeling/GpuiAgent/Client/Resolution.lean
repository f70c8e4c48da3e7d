import GpuiAgent.Client.Discovery

namespace GpuiAgent

open Framework

namespace Discovery

section Live

variable {Addr : Type} (env : Surroundings Addr)

/-- The record in a file, if it is one of a running process. -/
def HostFile.live (file : HostFile) : Option (String × HostRecord) :=
  if hasJsonExtension file.name then
    match file.body with
    | .record rec => if pidAlive env rec.pid then some (file.name, rec) else none
    | _ => none
  else none

/-- The records of running processes. -/
def HostsDir.live (dir : HostsDir) : List (String × HostRecord) :=
  dir.files.filterMap (HostFile.live env)

variable {env}

theorem HostFile.live_name {file : HostFile} {entry : String × HostRecord}
    (h : file.live env = some entry) : entry.1 = file.name := by
  unfold HostFile.live at h
  split at h
  · split at h
    · split at h
      · obtain rfl := Option.some.inj h
        rfl
      · cases h
    · cases h
  · cases h

theorem HostsDir.live_remove (removable : String → Bool) (dir : HostsDir) (name : String) :
    (dir.remove removable name).live env =
      if removable name then (dir.live env).filter fun entry => entry.1 ≠ name
      else dir.live env := by
  unfold HostsDir.remove HostsDir.live
  split_ifs
  · rw [List.filter_filterMap, List.filterMap_filter]
    congr 1
    funext file
    cases hfile : file.live env with
    | none => simp
    | some entry => simp [HostFile.live_name hfile, Option.filter]
  · rfl

/-- Two files of the directory have different names. -/
theorem HostsDir.eq_of_name {dir : HostsDir} {file file' : HostFile} (h : file ∈ dir.files)
    (h' : file' ∈ dir.files) (name : file.name = file'.name) : file = file' :=
  List.inj_on_of_nodup_map dir.nodup h h' name

/-- Two live records stand in different files. -/
theorem HostsDir.live_inj {dir : HostsDir} {e e' : String × HostRecord} (h : e ∈ dir.live env)
    (h' : e' ∈ dir.live env) (name : e.1 = e'.1) : e = e' := by
  obtain ⟨file, hfile, he⟩ := List.mem_filterMap.mp h
  obtain ⟨file', hfile', he'⟩ := List.mem_filterMap.mp h'
  have hsame : file = file' := by
    refine HostsDir.eq_of_name hfile hfile' ?_
    rw [← HostFile.live_name he, ← HostFile.live_name he', name]
  rw [hsame, he'] at he
  exact (Option.some.inj he).symm

/-- What is removed while the directory is read is not live. -/
theorem loadLiveFrom_spec (files : List HostFile) : ∀ dir : HostsDir,
    (∀ file ∈ files, file.live env = none → ∀ entry ∈ dir.live env, entry.1 ≠ file.name) →
    (loadLiveFrom env files dir).1 = files.filterMap (HostFile.live env) ∧
      (loadLiveFrom env files dir).2.live env = dir.live env := by
  induction files with
  | nil => exact fun dir _ => ⟨rfl, rfl⟩
  | cons file files ih =>
    intro dir hstale
    obtain ⟨hfile, hfiles⟩ := List.forall_mem_cons.mp hstale
    have hskip (hnone : file.live env = none) :
        (loadLiveFrom env files dir).1 = (file :: files).filterMap (HostFile.live env) ∧
          (loadLiveFrom env files dir).2.live env = dir.live env := by
      rw [List.filterMap_cons_none hnone]
      exact ih dir hfiles
    have hremove (hnone : file.live env = none) :
        (loadLiveFrom env files (dir.remove env.removable file.name)).1 =
            (file :: files).filterMap (HostFile.live env) ∧
          (loadLiveFrom env files (dir.remove env.removable file.name)).2.live env =
            dir.live env := by
      have hsame : (dir.remove env.removable file.name).live env = dir.live env := by
        rw [HostsDir.live_remove]
        split_ifs
        · exact List.filter_eq_self.mpr fun entry hentry => by
            simpa using hfile hnone entry hentry
        · rfl
      rw [List.filterMap_cons_none hnone, ← hsame]
      refine ih _ fun file' hfile' hnone' => ?_
      rw [hsame]
      exact hfiles file' hfile' hnone'
    rw [loadLiveFrom]
    by_cases hext : hasJsonExtension file.name = true
    · rw [if_neg (by simp [hext])]
      cases hbody : file.body with
      | unreadable => exact hskip (by simp [HostFile.live, hbody])
      | malformed => exact hremove (by simp [HostFile.live, hbody])
      | record rec =>
        dsimp only
        by_cases halive : pidAlive env rec.pid = true
        · have hlive : file.live env = some (file.name, rec) := by
            simp [HostFile.live, hext, hbody, halive]
          obtain ⟨hout, hdir⟩ := ih dir hfiles
          rw [if_neg (by simp [halive]), List.filterMap_cons_some hlive, ← hout]
          exact ⟨rfl, hdir⟩
        · rw [if_pos (by simpa using halive)]
          exact hremove (by simp [HostFile.live, hbody, halive])
    · rw [if_pos (by simpa using hext)]
      exact hskip (by simp [HostFile.live, hext])

/-- Reading the directory leaves the live records there. -/
theorem loadLive_spec (dir : HostsDir) :
    (loadLive env dir).1 = dir.live env ∧ (loadLive env dir).2.live env = dir.live env := by
  refine loadLiveFrom_spec dir.files dir fun file hfile hnone entry hentry hname => ?_
  obtain ⟨file', hfile', hlive⟩ := List.mem_filterMap.mp hentry
  have hsame : file' = file := by
    refine HostsDir.eq_of_name hfile' hfile ?_
    rw [← HostFile.live_name hlive, hname]
  rw [hsame, hnone] at hlive
  cases hlive

/-- The port of the record is open. -/
def isOpen (env : Surroundings Addr) (entry : String × HostRecord) : Bool :=
  tcpOpen env entry.2.addr

/-- Probing candidates does not take the record off the directory. -/
def staysBehind (env : Surroundings Addr) (candidates : List (String × HostRecord))
    (entry : String × HostRecord) : Bool :=
  !(env.removable entry.1 && candidates.any fun candidate =>
    decide (candidate.1 = entry.1) && !isOpen env candidate)

/-- Probing finds the open candidates, and takes the others off the directory. -/
theorem probe_spec (candidates : List (String × HostRecord)) : ∀ dir : HostsDir,
    (probe env candidates dir).1 = (candidates.filter (isOpen env)).map Prod.snd ∧
      (probe env candidates dir).2.live env =
        (dir.live env).filter (staysBehind env candidates) := by
  induction candidates with
  | nil =>
    intro dir
    refine ⟨rfl, (List.filter_eq_self.mpr fun entry _ => ?_).symm⟩
    simp [staysBehind]
  | cons candidate rest ih =>
    intro dir
    rw [probe]
    cases hopen : isOpen env candidate with
    | true =>
      obtain ⟨hfound, hdir⟩ := ih dir
      have hport : tcpOpen env candidate.2.addr = true := hopen
      rw [if_pos hport, List.filter_cons_of_pos hopen, List.map_cons, ← hfound]
      refine ⟨rfl, hdir.trans (List.filter_congr fun entry _ => ?_)⟩
      simp [staysBehind, hopen]
    | false =>
      obtain ⟨hfound, hdir⟩ := ih (dir.remove env.removable candidate.1)
      have hclosed : ¬ tcpOpen env candidate.2.addr = true := by
        rw [← isOpen, hopen]
        exact Bool.false_ne_true
      rw [if_neg hclosed, List.filter_cons_of_neg (by simp [hopen])]
      refine ⟨hfound, ?_⟩
      rw [hdir, HostsDir.live_remove]
      split_ifs with hremovable
      · rw [List.filter_filter]
        refine List.filter_congr fun entry _ => ?_
        by_cases hname : candidate.1 = entry.1
        · rw [hname] at hremovable
          simp [staysBehind, hname, hopen, hremovable]
        · simp [staysBehind, hname, Ne.symm hname]
      · refine List.filter_congr fun entry _ => ?_
        by_cases hname : candidate.1 = entry.1
        · rw [hname] at hremovable
          simp [staysBehind, hremovable]
        · simp [staysBehind, hname]

end Live

section Tiers

variable {Addr : Type} (env : Surroundings Addr) (id : String)

def exactly (entry : String × HostRecord) : Bool := exactMatch entry.2 id

def byBasename (entry : String × HostRecord) : Bool := basenameMatch entry.2 id

/-- The records that are probed for an id. -/
def candidates (live : List (String × HostRecord)) : List (String × HostRecord) :=
  if (live.filter (exactly id)).isEmpty then live.filter (byBasename id)
  else live.filter (exactly id)

def outcome : List HostRecord → Except ResolveError HostRecord
  | [] => .error (.missing id)
  | [rec] => .ok rec
  | found => .error (.ambiguous id (ambiguity found))

/-- The open records that match an id, in the first way in which an open one does. -/
def firstTier (live : List (String × HostRecord)) : List HostRecord :=
  let exact := (live.filter (exactly id)).filter (isOpen env)
  let base := (live.filter (byBasename id)).filter (isOpen env)
  (if exact.isEmpty then base else exact).map Prod.snd

variable {env id}

/-- What a resolution comes to, and what it leaves of the live records. -/
theorem resolveId_spec (dir : HostsDir) :
    (resolveId env dir id).1 =
        outcome id (((candidates id (dir.live env)).filter (isOpen env)).map Prod.snd) ∧
      (resolveId env dir id).2.live env =
        (dir.live env).filter (staysBehind env (candidates id (dir.live env))) := by
  obtain ⟨hlive, hdir⟩ := @loadLive_spec Addr env dir
  obtain ⟨hfound, hleft⟩ := @probe_spec Addr env (candidates id (dir.live env)) (loadLive env dir).2
  rw [hdir] at hleft
  rw [← hfound, ← hleft]
  have hcandidates : (if ((dir.live env).filter fun entry => exactMatch entry.2 id).isEmpty then
      (dir.live env).filter fun entry => basenameMatch entry.2 id
      else (dir.live env).filter fun entry => exactMatch entry.2 id) =
        candidates id (dir.live env) := rfl
  unfold resolveId
  dsimp only
  rw [hlive, hcandidates]
  generalize probe env (candidates id (dir.live env)) (loadLive env dir).2 = probed
  obtain ⟨found, left⟩ := probed
  match found with
  | [] => exact ⟨rfl, rfl⟩
  | [_] => exact ⟨rfl, rfl⟩
  | _ :: _ :: _ => exact ⟨rfl, rfl⟩

theorem outcome_eq_ok {found : List HostRecord} {rec : HostRecord} :
    outcome id found = .ok rec ↔ found = [rec] := by
  match found with
  | [] => simp [outcome]
  | [_] => simp [outcome]
  | _ :: _ :: _ => simp [outcome]

theorem outcome_eq_missing {found : List HostRecord} :
    outcome id found = .error (.missing id) ↔ found = [] := by
  match found with
  | [] => simp [outcome]
  | [_] => simp [outcome]
  | _ :: _ :: _ => simp [outcome]

theorem mem_of_mem_candidates {live : List (String × HostRecord)} {entry : String × HostRecord}
    (h : entry ∈ candidates id live) : entry ∈ live := by
  unfold candidates at h
  split at h
  · exact (List.mem_filter.mp h).1
  · exact (List.mem_filter.mp h).1

section Again

variable {dir : HostsDir} {entry : String × HostRecord}

/-- A record stays unless it is a closed candidate whose file can be removed. -/
theorem staysBehind_eq (h : entry ∈ dir.live env) :
    staysBehind env (candidates id (dir.live env)) entry = false ↔
      env.removable entry.1 = true ∧ entry ∈ candidates id (dir.live env) ∧
        isOpen env entry = false := by
  unfold staysBehind
  rw [Bool.not_eq_false', Bool.and_eq_true, List.any_eq_true]
  refine and_congr_right fun _ => ⟨?_, fun ⟨hmem, hclosed⟩ => ⟨entry, hmem, by simp [hclosed]⟩⟩
  rintro ⟨candidate, hmem, hsame⟩
  rw [Bool.and_eq_true, decide_eq_true_eq, Bool.not_eq_true'] at hsame
  obtain rfl := HostsDir.live_inj (mem_of_mem_candidates hmem) h hsame.1
  exact ⟨hmem, hsame.2⟩

theorem staysBehind_of_isOpen (h : entry ∈ dir.live env) (hopen : isOpen env entry = true) :
    staysBehind env (candidates id (dir.live env)) entry = true := by
  rw [← Bool.not_eq_false, staysBehind_eq h]
  rintro ⟨-, -, hclosed⟩
  rw [hopen] at hclosed
  cases hclosed

variable (env id dir) in
/-- The live records after a resolution. -/
def liveAgain : List (String × HostRecord) :=
  (dir.live env).filter (staysBehind env (candidates id (dir.live env)))

/-- Those that are open are still there. -/
theorem opened_liveAgain (p : String × HostRecord → Bool) :
    ((liveAgain env id dir).filter p).filter (isOpen env) =
      ((dir.live env).filter p).filter (isOpen env) := by
  unfold liveAgain
  rw [List.filter_filter, List.filter_filter, List.filter_filter]
  refine List.filter_congr fun entry hentry => ?_
  cases hopen : isOpen env entry with
  | true => simp [staysBehind_of_isOpen hentry hopen]
  | false => simp

/-- Exact matches without an open one among them are all gone if their files can be removed. -/
theorem exactly_liveAgain (hexact : (dir.live env).filter (exactly id) ≠ [])
    (hclosed : ((dir.live env).filter (exactly id)).filter (isOpen env) = []) :
    (liveAgain env id dir).filter (exactly id) = [] ↔
      ∀ entry ∈ dir.live env, exactly id entry = true → env.removable entry.1 = true := by
  have hcandidates : candidates id (dir.live env) = (dir.live env).filter (exactly id) :=
    if_neg (by simpa using hexact)
  have hshut : ∀ entry ∈ dir.live env, exactly id entry = true → isOpen env entry = false := by
    intro entry hentry hmatch
    simpa using List.filter_eq_nil_iff.mp hclosed entry (List.mem_filter.mpr ⟨hentry, hmatch⟩)
  rw [List.filter_eq_nil_iff]
  constructor
  · intro h entry hentry hmatch
    have hgone : staysBehind env (candidates id (dir.live env)) entry = false := by
      rw [← Bool.not_eq_true]
      exact fun hstay => h entry (List.mem_filter.mpr ⟨hentry, hstay⟩) hmatch
    exact ((staysBehind_eq hentry).mp hgone).1
  · intro h entry hagain hmatch
    obtain ⟨hentry, hstay⟩ := List.mem_filter.mp hagain
    have hgone := (@staysBehind_eq Addr env id dir entry hentry).mpr
      ⟨h entry hentry hmatch, hcandidates ▸ List.mem_filter.mpr ⟨hentry, hmatch⟩,
        hshut entry hentry hmatch⟩
    rw [hstay] at hgone
    cases hgone

theorem candidates_of_exact {live : List (String × HostRecord)}
    (h : live.filter (exactly id) ≠ []) : candidates id live = live.filter (exactly id) :=
  if_neg (by simpa using h)

theorem candidates_of_none {live : List (String × HostRecord)}
    (h : live.filter (exactly id) = []) : candidates id live = live.filter (byBasename id) :=
  if_pos (by simp [h])

theorem resolveId_again (dir : HostsDir) :
    (resolveId env (resolveId env dir id).2 id).1 =
      outcome id (((candidates id (liveAgain env id dir)).filter (isOpen env)).map Prod.snd) := by
  rw [(resolveId_spec (resolveId env dir id).2).1, (resolveId_spec dir).2]
  rfl

end Again

/-- One open record in the first tier with an open match is the answer, and the answer stays. -/
structure ResolvesRight (env : Surroundings Addr) (dir : HostsDir) (id : String) : Prop where
  unambiguous : ∀ rec, (resolveId env dir id).1 = .ok rec ↔ firstTier env id (dir.live env) = [rec]
  repeatable : (resolveId env (resolveId env dir id).2 id).1 = (resolveId env dir id).1

/-- Exact matches that are all closed stand before open matches by basename: a single one, or more
that come to light once the exact ones are removed. -/
structure Overshadowed (env : Surroundings Addr) (live : List (String × HostRecord))
    (id : String) : Prop where
  exact : live.filter (exactly id) ≠ []
  closed : (live.filter (exactly id)).filter (isOpen env) = []
  shadowed : (live.filter (byBasename id)).filter (isOpen env) ≠ []
  shows : ((live.filter (byBasename id)).filter (isOpen env)).length = 1 ∨
    ∀ entry ∈ live, exactly id entry = true → env.removable entry.1 = true

/-- A resolution is right exactly if its exact matches do not overshadow those by basename. -/
theorem resolvesRight_iff (env : Surroundings Addr) (dir : HostsDir) (id : String) :
    ResolvesRight env dir id ↔ ¬ Overshadowed env (dir.live env) id := by
  have hfirst := (@resolveId_spec Addr env id dir).1
  have hagain := @resolveId_again Addr env id dir
  by_cases hexact : (dir.live env).filter (exactly id) = []
  · -- the first and the second resolution both go by basename
    have hgone : (liveAgain env id dir).filter (exactly id) = [] := by
      rw [List.filter_eq_nil_iff] at hexact ⊢
      exact fun entry hentry => hexact entry (List.mem_filter.mp hentry).1
    rw [candidates_of_none hexact] at hfirst
    rw [candidates_of_none hgone, opened_liveAgain] at hagain
    refine iff_of_true ⟨fun rec => ?_, hagain.trans hfirst.symm⟩ fun h => h.exact hexact
    rw [hfirst, outcome_eq_ok, firstTier, hexact]
    rfl
  · rw [candidates_of_exact hexact] at hfirst
    by_cases hopen : ((dir.live env).filter (exactly id)).filter (isOpen env) = []
    · have htier : firstTier env id (dir.live env) =
          (((dir.live env).filter (byBasename id)).filter (isOpen env)).map Prod.snd := by
        rw [firstTier, hopen]
        rfl
      have hmissing : (resolveId env dir id).1 = .error (.missing id) := by
        rw [hfirst, hopen]
        rfl
      have hremoved := exactly_liveAgain hexact hopen
      have hunambiguous : (∀ rec, (resolveId env dir id).1 = .ok rec ↔
          firstTier env id (dir.live env) = [rec]) ↔
          (((dir.live env).filter (byBasename id)).filter (isOpen env)).length ≠ 1 := by
        rw [hmissing, htier, ← List.length_map Prod.snd, Ne, List.length_eq_one_iff, not_exists]
        exact forall_congr' fun rec => by simp
      have hrepeatable : (resolveId env (resolveId env dir id).2 id).1 = (resolveId env dir id).1 ↔
          ((liveAgain env id dir).filter (exactly id) = [] →
            ((dir.live env).filter (byBasename id)).filter (isOpen env) = []) := by
        rw [hmissing, hagain, outcome_eq_missing, List.map_eq_nil_iff]
        by_cases hgone : (liveAgain env id dir).filter (exactly id) = []
        · rw [candidates_of_none hgone, opened_liveAgain]
          exact ⟨fun h _ => h, fun h => h hgone⟩
        · rw [candidates_of_exact hgone, opened_liveAgain]
          exact iff_of_true hopen fun h => absurd h hgone
      rw [hremoved] at hrepeatable
      constructor
      · rintro ⟨hone, hsame⟩ ⟨-, -, hshadowed, hshows⟩
        rcases hshows with hlen | hall
        · exact hunambiguous.mp hone hlen
        · exact hshadowed (hrepeatable.mp hsame hall)
      · intro h
        refine ⟨hunambiguous.mpr fun hlen => ?_, hrepeatable.mpr fun hall => ?_⟩
        · refine h ⟨hexact, hopen, fun hnil => ?_, .inl hlen⟩
          rw [hnil] at hlen
          cases hlen
        · by_contra hshadowed
          exact h ⟨hexact, hopen, hshadowed, .inr hall⟩
    · -- an open exact match is still there the second time
      have hstill : (liveAgain env id dir).filter (exactly id) ≠ [] := by
        intro hgone
        have hnone := @opened_liveAgain Addr env id dir (exactly id)
        rw [hgone] at hnone
        exact hopen hnone.symm
      rw [candidates_of_exact hstill, opened_liveAgain] at hagain
      refine iff_of_true ⟨fun rec => ?_, hagain.trans hfirst.symm⟩ fun h => hopen h.closed
      rw [hfirst, outcome_eq_ok, firstTier, if_neg (by simpa using hopen)]

end Tiers

/-- Ports that are named by a string, of which one is open. -/
def onePort : Surroundings String where
  parse := some
  connects addr := decide (addr = "127.0.0.1:4002")
  signals _ := true
  removable _ := true
  savable := true
  defaultAddr := "127.0.0.1:17421"

/-- An exact match whose port is closed, and an open match by basename. -/
def demoHosts : HostsDir where
  files := [
    ⟨"41-4001.json", .record ⟨"127.0.0.1:4001", 41, "demo", "demo", none, none⟩⟩,
    ⟨"42-4002.json", .record ⟨"127.0.0.1:4002", 42, "Demo",
      "/Applications/Demo.app/Contents/MacOS/demo", none, none⟩⟩]
  nodup := by decide

/-- The open record is not found at first, and then it is. -/
theorem not_resolvesRight_demo : ¬ ResolvesRight onePort demoHosts "demo" := by
  intro h
  have hfirst : (resolveId onePort demoHosts "demo").1 = .error (.missing "demo") := by
    decide +kernel
  have hagain : (resolveId onePort (resolveId onePort demoHosts "demo").2 "demo").1 ≠
      .error (.missing "demo") := by
    decide +kernel
  exact hagain (h.repeatable.trans hfirst)

end Discovery

end GpuiAgent
