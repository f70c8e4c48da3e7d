import GpuiAgent.Host.Protocol

namespace GpuiAgent

/-- Cap on queued work, and the largest pipeline a client sends at once. -/
def MAX_MAILBOX_DEPTH : Nat := 128

def MAILBOX_FULL : String := "mailbox full (UI thread not draining)"

def DRAIN_TIMED_OUT : String :=
  "timed out waiting for the UI thread to drain the agent mailbox"

/-- A queued request with the number of its reply channel. -/
structure MailboxRequest where
  ticket : Nat
  request : Request

/-- The queue between the connection threads and the UI thread, oldest request first. -/
structure AgentMailbox where
  inner : List MailboxRequest

namespace AgentMailbox

def new : AgentMailbox := ⟨[]⟩

/-- The reply that a full mailbox sends at once, and the mailbox. -/
def push (m : AgentMailbox) (posted : MailboxRequest) : Option Response × AgentMailbox :=
  if MAX_MAILBOX_DEPTH ≤ m.inner.length then (some (.err posted.request.id MAILBOX_FULL), m)
  else (none, ⟨m.inner ++ [posted]⟩)

def take (m : AgentMailbox) : List MailboxRequest × AgentMailbox := (m.inner, ⟨[]⟩)

/-- `recv_timeout`: the message on the channel, or an error once the time is up. -/
def recvTimeout (message : Option Response) (expired : Bool) : Option (Except String Response) :=
  match message with
  | some resp => some (.ok resp)
  | none => if expired then some (.error DRAIN_TIMED_OUT) else none

end AgentMailbox

end GpuiAgent
