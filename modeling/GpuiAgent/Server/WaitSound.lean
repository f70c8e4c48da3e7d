import GpuiAgent.Framework.Run
import GpuiAgent.Server.Messages
import GpuiAgent.Server.WaitUntil

namespace GpuiAgent

open Framework MailboxServer

/-- A revision followed by one that is no smaller. -/
def RevLe (before after : Option Nat) : Prop := ∀ rev ∈ before, ∃ later ∈ after, rev ≤ later

instance (before after : Option Nat) : Decidable (RevLe before after) :=
  match before, after with
  | none, _ => .isTrue fun _ h => absurd h (by simp)
  | some _, none => .isFalse fun h => by simpa using h _ rfl
  | some a, some b => decidable_of_iff (a ≤ b) (by simp [RevLe])

theorem RevLe.refl (rev : Option Nat) : RevLe rev rev := fun r hr => ⟨r, hr, le_rfl⟩

theorem RevLe.trans {a b c : Option Nat} (h : RevLe a b) (h' : RevLe b c) : RevLe a c := by
  intro r hr
  obtain ⟨r₁, hr₁, hle₁⟩ := h r hr
  obtain ⟨r₂, hr₂, hle₂⟩ := h' r₁ hr₁
  exact ⟨r₂, hr₂, hle₁.trans hle₂⟩

namespace Waiting

variable {σ ι : Type} {req : Request} {spec : AssertSpec} {ui : ObservedUi σ ι}

/-- What the call's phase promises about the server. -/
def PhaseOk (req : Request) (spec : AssertSpec) (ui : ObservedUi σ ι) (s : MailboxServer σ)
    (asserts : List Nat) : WaitPhase → Prop
  | .top | .posting none | .asserting _ none | .returned _ => True
  | .probing ticket => s.requests[ticket]? = some { req with op := .revision }
  | .posting (some rev) => RevLe (some rev) (ui.revision s.app)
  | .asserting ticket (some rev) =>
    ticket ∈ asserts ∧ ticket ∉ s.rejected ∧
      s.requests[ticket]? = some { req with op := .assert spec } ∧
      RevLe (some rev) (ui.revision s.app) ∧
      ∀ e ∈ s.served, e.posted.ticket = ticket → RevLe (some rev) (ui.revision e.app)

/-- What holds in every state that is reached while the host's revision does not go down. -/
structure Inv (req : Request) (spec : AssertSpec) (ui : ObservedUi σ ι) (w : Waiting σ) : Prop where
  ticketed : Ticketed w.server
  sourced : Sourced ui.toUiThread w.server
  grown : ∀ e ∈ w.server.served, RevLe (ui.revision e.app) (ui.revision w.server.app)
  checked : ∀ rev, w.call.checkedRev = some rev → ∃ r, rev = some r ∧ w.Evaluated spec ui r
  skipped : ∀ rev ∈ w.call.skipped, w.Evaluated spec ui rev
  phase : PhaseOk req spec ui w.server w.call.asserts w.call.phase

theorem Evaluated.mono {w w' : Waiting σ} {rev : Nat} (h : w.Evaluated spec ui rev)
    (served : w.server.served <+: w'.server.served)
    (asserts : w.call.asserts ⊆ w'.call.asserts) : w'.Evaluated spec ui rev := by
  obtain ⟨e, he, ticket, rest⟩ := h
  exact ⟨e, served.subset he, asserts ticket, rest⟩

/-- A step of any thread, if the host's revision does not go down. -/
theorem Inv.server {w : Waiting σ} (h : Inv req spec ui w) (e : MailboxEvent ι)
    (grows : RevLe (ui.revision w.server.app)
      (ui.revision (w.server.step ui.toUiThread e).app)) :
    Inv req spec ui { w with server := w.server.step ui.toUiThread e } := by
  have later := later_step ui.toUiThread w.server e
  have served := served_of_step ui.toUiThread w.server e
  refine ⟨h.ticketed.step e, h.sourced.step e, ?_, ?_, ?_, ?_⟩
  · intro x hx
    rcases served x hx with hx | heq
    · exact (h.grown x hx).trans grows
    · rw [heq]
      exact grows
  · intro rev hrev
    obtain ⟨r, heq, evaluated⟩ := h.checked rev hrev
    exact ⟨r, heq, evaluated.mono later.served (List.Subset.refl _)⟩
  · exact fun rev hrev => (h.skipped rev hrev).mono later.served (List.Subset.refl _)
  · have phase := h.phase
    dsimp only
    cases hphase : w.call.phase with
    | top => trivial
    | returned resp => trivial
    | probing ticket =>
      rw [hphase] at phase
      exact later.getElem?_requests phase
    | posting rev =>
      rw [hphase] at phase
      cases rev with
      | none => trivial
      | some rev => exact RevLe.trans phase grows
    | asserting ticket rev =>
      rw [hphase] at phase
      cases rev with
      | none => trivial
      | some rev =>
        obtain ⟨posted, accepted, request, low, since⟩ := phase
        have old := (List.getElem?_eq_some_iff.mp request).1
        refine ⟨posted, later.not_mem_rejected old accepted, later.getElem?_requests request,
          low.trans grows, fun x hx hticket => ?_⟩
        rcases served x hx with hx | heq
        · exact since x hx hticket
        · rw [heq]
          exact low

/-- A new state of the call over the same server. -/
theorem Inv.withCall {s : MailboxServer σ} {call call' : WaitUntilCall}
    (h : Inv req spec ui ⟨s, call⟩) (asserts : call.asserts ⊆ call'.asserts)
    (checked : ∀ rev, call'.checkedRev = some rev → call.checkedRev = some rev ∨
      ∃ r, rev = some r ∧ Evaluated spec ui ⟨s, call'⟩ r)
    (skipped : ∀ rev ∈ call'.skipped, rev ∈ call.skipped ∨ call.checkedRev = some (some rev))
    (phase : PhaseOk req spec ui s call'.asserts call'.phase) : Inv req spec ui ⟨s, call'⟩ := by
  have kept : ∀ r, Evaluated spec ui ⟨s, call⟩ r → Evaluated spec ui ⟨s, call'⟩ r :=
    fun r evaluated => evaluated.mono (List.prefix_refl _) asserts
  refine ⟨h.ticketed, h.sourced, h.grown, fun rev hrev => ?_, fun rev hrev => ?_, phase⟩
  · rcases checked rev hrev with old | new
    · obtain ⟨r, heq, evaluated⟩ := h.checked rev old
      exact ⟨r, heq, kept r evaluated⟩
    · exact new
  · rcases skipped rev hrev with old | checked
    · exact kept rev (h.skipped rev old)
    · obtain ⟨r, heq, evaluated⟩ := h.checked _ checked
      obtain rfl := Option.some.inj heq
      exact kept rev evaluated

theorem Inv.withPhase {s : MailboxServer σ} {call : WaitUntilCall} (h : Inv req spec ui ⟨s, call⟩)
    {phase : WaitPhase} (ok : PhaseOk req spec ui s call.asserts phase) :
    Inv req spec ui ⟨s, { call with phase }⟩ :=
  h.withCall (List.Subset.refl _) (fun _ hrev => .inl hrev) (fun _ hrev => .inl hrev) ok

/-- An answer that is not an error of the transport is the app's, unless the request was refused. -/
theorem Inv.answer {w : Waiting σ} (h : Inv req spec ui w) {ticket : Nat} {request : Request}
    {resp : Response} (hrequest : w.server.requests[ticket]? = some request)
    (answered : w.server.answers.lookup ticket = some (.ok resp)) :
    (ticket ∈ w.server.rejected ∧ ∃ id, resp = .err id MAILBOX_FULL) ∨
    ∃ e ∈ w.server.served, e.posted.ticket = ticket ∧ e.posted.request = request ∧
      ∀ r, (ui.serve e.app e.posted).1 = some r → resp = r := by
  have sent := h.sourced.answers _ (mem_of_lookup answered) resp rfl
  refine (h.sourced.sent _ sent).imp_right ?_
  rintro ⟨e, he, rfl, outcome⟩
  have accepted : e.posted ∈ w.server.accepted := by
    rw [accepted_eq]
    exact List.mem_append_left _ (List.mem_map_of_mem he)
  have posted := h.ticketed.posted _ accepted
  exact ⟨e, he, rfl, Option.some.inj (posted.symm.trans hrequest), outcome⟩

/-- What a probe reports is a revision the host had. -/
theorem Inv.probe_rev {w : Waiting σ} (h : Inv req spec ui w) (current : req.v = PROTOCOL_VERSION)
    {ticket : Nat} {resp : Response}
    (hrequest : w.server.requests[ticket]? = some { req with op := .revision })
    (answered : w.server.answers.lookup ticket = some (.ok resp)) :
    RevLe resp.rev (ui.revision w.server.app) := by
  rcases h.answer hrequest answered with ⟨_, id, rfl⟩ | ⟨e, he, rfl, posted, outcome⟩
  · exact fun r hr => absurd hr (by simp [Response.err])
  · have reply := ui.serve_revision e.app e.posted (by rw [posted]; exact current) (by rw [posted])
    rw [outcome _ reply]
    exact h.grown e he

/-- An assert that was queued and did not succeed has been evaluated. -/
theorem Inv.assert_failed {w : Waiting σ} (h : Inv req spec ui w)
    (current : req.v = PROTOCOL_VERSION) {ticket rev : Nat} {resp : Response}
    (phase : PhaseOk req spec ui w.server w.call.asserts (.asserting ticket (some rev)))
    (answered : w.server.answers.lookup ticket = some (.ok resp)) (failed : resp.ok = false) :
    w.Evaluated spec ui rev := by
  obtain ⟨posted, accepted, request, _, since⟩ := phase
  rcases h.answer request answered with ⟨refused, _⟩ | ⟨e, he, rfl, heq, outcome⟩
  · exact absurd refused accepted
  · have reply := ui.serve_assert e.app e.posted spec (by rw [heq]; exact current) (by rw [heq])
    obtain rfl := outcome _ reply
    cases evaluated : ui.evaluate e.app spec with
    | ok _ => simp [evaluated, assertReply, Response.success] at failed
    | error error =>
      obtain ⟨later, hlater, hle⟩ := since e he rfl rev rfl
      exact ⟨e, he, posted, by rw [heq], ⟨error, evaluated⟩, later, hlater, hle⟩

theorem Inv.push {w : Waiting σ} (h : Inv req spec ui w) (request : Request) :
    Inv req spec ui { w with server := w.server.push request } := by
  refine h.server (.push request) ?_
  have app : (w.server.push request).app = w.server.app := by
    rcases w.server.push_cases request with ⟨_, heq⟩ | ⟨_, heq⟩ <;> rw [heq]
  rw [MailboxServer.step, app]
  exact RevLe.refl _

theorem Inv.wait {w : Waiting σ} (h : Inv req spec ui w) (ticket : Nat) (expired : Bool) :
    Inv req spec ui { w with server := w.server.wait ticket expired } := by
  refine h.server (.wait ticket expired) ?_
  have app : (w.server.wait ticket expired).app = w.server.app := by
    rcases w.server.wait_cases ticket expired with heq | ⟨_, _, _, _, heq⟩ <;> rw [heq]
  rw [MailboxServer.step, app]
  exact RevLe.refl _

theorem Inv.probed {s : MailboxServer σ} {call : WaitUntilCall} (h : Inv req spec ui ⟨s, call⟩)
    (current : req.v = PROTOCOL_VERSION) (late : Bool) {ticket : Nat}
    {answer : Except String Response}
    (hrequest : s.requests[ticket]? = some { req with op := .revision })
    (answered : s.answers.lookup ticket = some answer) :
    Inv req spec ui ⟨s, Waiting.probed req call late answer⟩ := by
  cases answer with
  | error error => exact h.withPhase trivial
  | ok resp =>
    have low := h.probe_rev current hrequest answered
    unfold Waiting.probed
    dsimp only
    cases hrev : resp.rev with
    | none => exact h.withPhase trivial
    | some rev =>
      dsimp only
      by_cases checked : call.checkedRev = some (some rev)
      · rw [if_pos checked]
        refine h.withCall (List.Subset.refl _) (fun _ hrev => .inl hrev) (fun r hr => ?_) ?_
        · rcases List.mem_append.mp hr with hr | hr
          · exact .inl hr
          · obtain rfl := List.mem_singleton.mp hr
            exact .inr checked
        · cases late <;> trivial
      · rw [if_neg checked]
        rw [hrev] at low
        exact h.withPhase low

theorem Inv.asserted {s : MailboxServer σ} {call : WaitUntilCall} (h : Inv req spec ui ⟨s, call⟩)
    (current : req.v = PROTOCOL_VERSION) (late : Bool) {ticket : Nat} {probedRev : Option Nat}
    {answer : Except String Response}
    (phase : PhaseOk req spec ui s call.asserts (.asserting ticket probedRev))
    (answered : s.answers.lookup ticket = some answer) :
    Inv req spec ui ⟨s, Waiting.asserted req call probedRev late answer⟩ := by
  cases answer with
  | error error => exact h.withPhase trivial
  | ok resp =>
    unfold Waiting.asserted
    dsimp only
    cases failed : resp.ok with
    | true => exact h.withPhase trivial
    | false =>
      refine h.withCall (List.Subset.refl _) (fun rev hrev => ?_) (fun _ hrev => .inl hrev) ?_
      · cases probedRev with
        | none => exact .inl hrev
        | some r =>
          obtain rfl : some r = rev := Option.some.inj hrev
          obtain ⟨e, he, posted, rest⟩ := h.assert_failed current phase answered failed
          exact .inr ⟨r, rfl, e, he, posted, rest⟩
      · split_ifs <;> trivial

/-- A step of the call, if it does not post an assert to a full mailbox after a probe that gave a
revision. -/
theorem Inv.call {w : Waiting σ} (h : Inv req spec ui w) (current : req.v = PROTOCOL_VERSION)
    (expired late : Bool)
    (room : ∀ rev, w.call.phase = .posting (some rev) →
      w.server.mailbox.inner.length < MAX_MAILBOX_DEPTH) :
    Inv req spec ui (w.stepCall req spec expired late) := by
  have phase := h.phase
  unfold stepCall
  cases hphase : w.call.phase with
  | top =>
    refine (h.push { req with op := .revision }).withPhase ?_
    simp [PhaseOk, push_requests]
  | returned resp => exact h
  | probing ticket =>
    have waited := h.wait ticket expired
    have phase : PhaseOk req spec ui (w.server.wait ticket expired) w.call.asserts
        (.probing ticket) := by
      rw [← hphase]
      exact waited.phase
    dsimp only
    cases answered : (w.server.wait ticket expired).answers.lookup ticket with
    | none => exact waited
    | some answer => exact waited.probed current late phase answered
  | asserting ticket probedRev =>
    have waited := h.wait ticket expired
    have phase : PhaseOk req spec ui (w.server.wait ticket expired) w.call.asserts
        (.asserting ticket probedRev) := by
      rw [← hphase]
      exact waited.phase
    dsimp only
    cases answered : (w.server.wait ticket expired).answers.lookup ticket with
    | none => exact waited
    | some answer => exact waited.asserted current late phase answered
  | posting probedRev =>
    refine (h.push { req with op := .assert spec }).withCall (List.subset_append_left _ _)
      (fun _ hrev => .inl hrev) (fun _ hrev => .inl hrev) ?_
    cases probedRev with
    | none => trivial
    | some rev =>
      rw [hphase] at phase
      rcases w.server.push_cases { req with op := .assert spec } with ⟨_, heq⟩ | ⟨full, _⟩
      · have refused : w.server.requests.length ∉ w.server.rejected :=
          fun hmem => Nat.lt_irrefl _ (h.ticketed.refused _ hmem)
        refine ⟨List.mem_append_right _ List.mem_cons_self, ?_, ?_, ?_, fun e he hticket => ?_⟩
        · rw [heq]
          exact refused
        · simp [push_requests]
        · rw [heq]
          exact phase
        · rw [heq] at he
          have accepted : e.posted ∈ w.server.accepted := by
            rw [accepted_eq]
            exact List.mem_append_left _ (List.mem_map_of_mem he)
          exact absurd hticket (h.ticketed.ticket_lt accepted).ne
      · exact absurd (room rev hphase) (Nat.not_lt.mpr full)

theorem inv_start (ui : ObservedUi σ ι) (app : σ) : Inv req spec ui { server := { app } } where
  ticketed := ticketed_start app
  sourced := sourced_start _ app
  grown := fun _ he => absurd he List.not_mem_nil
  checked := fun _ hrev => by cases hrev
  skipped := fun _ hrev => absurd hrev List.not_mem_nil
  phase := trivial

end Waiting

end GpuiAgent
