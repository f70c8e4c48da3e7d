import GpuiAgent.Client.Resolution

namespace GpuiAgent

open Framework

namespace Discovery

section Last

variable {Addr : Type} (env : Surroundings Addr)

/-- No live record of the address is that of a host which the id does not match. -/
def NoStranger (live : List (String × HostRecord)) (id : String) (addr : Addr) : Prop :=
  ∀ entry ∈ live, env.parse entry.2.addr = some addr →
    exactMatch entry.2 id = true ∨ basenameMatch entry.2 id = true

/-- What `--connect last` answers belongs to the app that was saved, and is the only choice. -/
structure NamesRight (hosts : HostsDir) (session : SessionRecord)
    (result : Except ResolveError (ClientTarget Addr)) : Prop where
  owned : ∀ target, result = .ok target →
    NoStranger env (hosts.live env) session.id target.addr
  unambiguous : 2 ≤ (firstTier env session.id (hosts.live env)).length →
    ∃ err, result = .error err

/-- There is no stranger at the address of a single open candidate. Where there is none or there
are several, the saved address is closed, or has no stranger and there are not several to choose
from. -/
structure SafeLast (live : List (String × HostRecord)) (session : SessionRecord) : Prop where
  single : ∀ entry addr, (candidates session.id live).filter (isOpen env) = [entry] →
    env.parse entry.2.addr = some addr → NoStranger env live session.id addr
  saved : ((candidates session.id live).filter (isOpen env)).length ≠ 1 →
    ∀ addr, env.parse session.addr = some addr → env.connects addr = true →
      NoStranger env live session.id addr ∧ (firstTier env session.id live).length < 2

variable {env}

theorem tcpOpen_iff {addr : String} :
    tcpOpen env addr = true ↔
      ∃ parsed, env.parse addr = some parsed ∧ env.connects parsed = true := by
  unfold tcpOpen
  cases env.parse addr <;> simp

/-- A single open candidate is the first tier. -/
theorem firstTier_of_single {id : String} {live : List (String × HostRecord)}
    {entry : String × HostRecord} (h : (candidates id live).filter (isOpen env) = [entry]) :
    firstTier env id live = [entry.2] := by
  unfold firstTier
  by_cases hexact : live.filter (exactly id) = []
  · rw [candidates_of_none hexact] at h
    rw [hexact, h]
    rfl
  · rw [candidates_of_exact hexact] at h
    rw [h]
    rfl

/-- `--connect last` goes to the single open candidate, or else to the saved address if that is
open. -/
theorem resolveLast_spec (hosts : HostsDir) (session : SessionRecord) :
    let result := (resolveLast env ⟨hosts, some session⟩).1
    let found := (candidates session.id (hosts.live env)).filter (isOpen env)
    (∃ entry addr, found = [entry] ∧ env.parse entry.2.addr = some addr ∧
        result = .ok ⟨addr, some entry.2.app, some LAST_SESSION⟩) ∨
      (found.length ≠ 1 ∧ ∃ addr, env.parse session.addr = some addr ∧ env.connects addr = true ∧
        result = .ok ⟨addr, some session.id, some LAST_SESSION⟩) ∨
      (found.length ≠ 1 ∧ tcpOpen env session.addr = false ∧
        result = .error (.missing session.id)) := by
  intro result found
  have hresolve := (@resolveId_spec Addr env session.id hosts).1
  have hfound : (resolveId env hosts session.id).1 = outcome session.id (found.map Prod.snd) :=
    hresolve
  -- an open record has an address
  have hparse (addr : String) (parsed : Addr) (h : env.parse addr = some parsed) :
      parseAddr env addr = .ok parsed := by
    rw [parseAddr, h]
  have hsaved (err : ResolveError) (hlen : found.length ≠ 1)
      (herr : (resolveId env hosts session.id).1 = .error err) :
      (found.length ≠ 1 ∧ ∃ addr, env.parse session.addr = some addr ∧ env.connects addr = true ∧
        result = .ok ⟨addr, some session.id, some LAST_SESSION⟩) ∨
      (found.length ≠ 1 ∧ tcpOpen env session.addr = false ∧
        result = .error (.missing session.id)) := by
    cases hopen : tcpOpen env session.addr with
    | true =>
      obtain ⟨parsed, hsome, hconnects⟩ := tcpOpen_iff.mp hopen
      refine .inl ⟨hlen, parsed, hsome, hconnects, ?_⟩
      dsimp only [result, resolveLast]
      rw [herr]
      dsimp only
      rw [if_pos hopen, hparse _ _ hsome]
      rfl
    | false =>
      refine .inr ⟨hlen, rfl, ?_⟩
      dsimp only [result, resolveLast]
      rw [herr]
      dsimp only
      rw [if_neg (by simp [hopen])]
  match hlist : found with
  | [] => exact .inr (hsaved (.missing session.id) (by simp) hfound)
  | [entry] =>
    have hmem : entry ∈ found := by
      rw [hlist]
      exact List.mem_singleton_self entry
    obtain ⟨parsed, hsome, -⟩ := tcpOpen_iff.mp (List.mem_filter.mp hmem).2
    refine .inl ⟨entry, parsed, rfl, hsome, ?_⟩
    have hok : (resolveId env hosts session.id).1 = .ok entry.2 := hfound
    dsimp only [result, resolveLast]
    rw [hok]
    dsimp only
    rw [hparse _ _ hsome]
    rfl
  | first :: second :: rest =>
    exact .inr (hsaved (.ambiguous session.id (ambiguity ((first :: second :: rest).map Prod.snd)))
      (by simp) hfound)

/-- The app that `--connect last` names is never the wrong one exactly if the saved session and the
records leave no room for it. -/
theorem namesRight_iff (env : Surroundings Addr) (hosts : HostsDir) (session : SessionRecord) :
    NamesRight env hosts session
        (resolveClientTarget env ⟨hosts, some session⟩ none (some LAST_SESSION)).1 ↔
      SafeLast env (hosts.live env) session := by
  have hlast : resolveClientTarget env ⟨hosts, some session⟩ none (some LAST_SESSION) =
      resolveLast env ⟨hosts, some session⟩ := by
    have htrim : trim LAST_SESSION = LAST_SESSION := by decide +kernel
    unfold resolveClientTarget
    rw [Option.map_some, htrim]
    rfl
  rw [hlast]
  rcases @resolveLast_spec Addr env hosts session with
    ⟨entry, addr, hfound, haddr, hok⟩ | ⟨hlen, addr, haddr, hconnects, hok⟩ | ⟨hlen, hopen, herr⟩
  · -- the single open candidate decides, and the saved address does not matter
    have htier := firstTier_of_single hfound
    rw [hok]
    constructor
    · intro h
      refine ⟨fun entry' addr' hfound' haddr' => ?_, fun hlen => absurd (by rw [hfound]; rfl) hlen⟩
      obtain rfl := List.singleton_inj.mp (hfound.symm.trans hfound')
      obtain rfl := Option.some.inj (haddr.symm.trans haddr')
      exact h.owned _ rfl
    · intro h
      refine ⟨fun target htarget => ?_, fun htwo => ?_⟩
      · obtain rfl := Except.ok.inj htarget
        exact h.single entry addr hfound haddr
      · rw [htier] at htwo
        exact absurd htwo (by simp)
  · -- the saved address is open, and is taken
    have hnone : ∀ entry',
        (candidates session.id (hosts.live env)).filter (isOpen env) ≠ [entry'] := by
      intro entry' h
      rw [h] at hlen
      exact hlen rfl
    rw [hok]
    constructor
    · intro h
      refine ⟨fun entry' _ hfound' => absurd hfound' (hnone entry'), fun _ addr' haddr' _ => ?_⟩
      obtain rfl := Option.some.inj (haddr.symm.trans haddr')
      refine ⟨h.owned _ rfl, Nat.lt_of_not_le fun htwo => ?_⟩
      obtain ⟨err, herr⟩ := h.unambiguous htwo
      cases herr
    · intro h
      obtain ⟨hstranger, hfew⟩ := h.saved hlen addr haddr hconnects
      refine ⟨fun target htarget => ?_, fun htwo => absurd hfew (Nat.not_lt.mpr htwo)⟩
      obtain rfl := Except.ok.inj htarget
      exact hstranger
  · rw [herr]
    refine iff_of_true ⟨fun target htarget => ?_, fun _ => ⟨_, rfl⟩⟩ ⟨fun entry' _ h => ?_, ?_⟩
    · cases htarget
    · rw [h] at hlen
      exact absurd rfl hlen
    · intro _ addr haddr hconnects
      have hopen' := tcpOpen_iff.mpr ⟨addr, haddr, hconnects⟩
      rw [hopen] at hopen'
      cases hopen'

end Last

def savedDemo : SessionRecord := ⟨"127.0.0.1:4002", "dev.example.demo"⟩

/-- The saved host is gone, and another one has its port. -/
def otherHost : HostsDir where
  files := [⟨"43-4002.json", .record ⟨"127.0.0.1:4002", 43, "Other", "other", none, none⟩⟩]
  nodup := by decide

/-- The other host is driven under the saved name. -/
theorem not_namesRight_other : ¬ NamesRight onePort otherHost savedDemo
    (resolveClientTarget onePort ⟨otherHost, some savedDemo⟩ none (some LAST_SESSION)).1 := by
  intro h
  have hok : (resolveClientTarget onePort ⟨otherHost, some savedDemo⟩ none (some LAST_SESSION)).1 =
      .ok ⟨"127.0.0.1:4002", some "dev.example.demo", some LAST_SESSION⟩ := by
    decide +kernel
  have hlive : ("43-4002.json", ⟨"127.0.0.1:4002", 43, "Other", "other", none, none⟩) ∈
      otherHost.live onePort := by
    decide +kernel
  have hmatch := h.owned _ hok _ hlive rfl
  exact absurd hmatch (by decide +kernel)

end Discovery

end GpuiAgent
