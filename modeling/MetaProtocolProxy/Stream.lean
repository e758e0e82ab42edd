import MetaProtocolProxy.Codec
/-
# Streams (stream.h, stream.cc)

A `Stream` forwards the messages of one streaming call after its init message: the client's
to the upstream connection attached to it, the server's to the downstream connection. It
has no codec of its own: `send2downstream` decodes with the codec of the connection manager
it belongs to, so the codec's state is an argument and a result here.

`clear` drops the upstream connection and has the connection manager erase the stream, which
destroys it; the C++ loop goes on if bytes are left, with an object that is gone. That case
is kept apart as `usedAfterClear`.
-/
namespace MetaProtocolProxy

open Framing (Step drain Drained drain_wait drain_done_inv drain_nil)

/-- An upstream connection (the `ConnectionData` of the Envoy pool). -/
abbrev ConnId := Nat

/-- `Stream`: `upstream_conn_data_`, `client_closed_`, `server_closed_`. -/
structure Stream where
  upstreamConn : Option ConnId := none
  clientClosed : Bool := false
  serverClosed : Bool := false
  deriving DecidableEq, Repr

namespace Stream

/-- `send2upstream` (stream.cc:17-25): the connection to write on; without one the message is
logged and dropped. -/
def send2upstream (st : Stream) : Option ConnId := st.upstreamConn

/-- The flags after forwarding a server message of type `t` (stream.cc:38-46). -/
def onServerMessage (st : Stream) (t : MessageType) : Stream :=
  match t with
  | .streamCloseOneWay => { st with serverClosed := true }
  | .streamCloseTwoWay => { st with clientClosed := true, serverClosed := true }
  | _ => st

/-- How `send2downstream` ends. -/
inductive SendEnd
  | returned
  | cleared
  | usedAfterClear
  | threw (e : Failure)
  deriving DecidableEq, Repr

structure Sent (σ α : Type) where
  codec : σ
  stream : Stream
  data : Bytes
  /-- The messages decoded; the `originMessage` of each is written downstream. -/
  written : List (Metadata α)
  how : SendEnd

variable {σ α : Type}

/-- `send2downstream` (stream.cc:27-52); `none` when `fuel` iterations did not suffice. -/
def send2downstream (cd : Codec σ α) (endStream : Bool) : Nat → σ → Stream → Bytes → Option (Sent σ α)
  | 0, _, _, _ => none
  | fuel + 1, s, st, data =>
    if data.isEmpty then some ⟨s, st, data, [], .returned⟩
    else match cd.decodeAs .response s data with
      | .wait s' rest => some ⟨s', st, rest, [], .returned⟩
      | .fail s' rest e => some ⟨s', st, rest, [], .threw e⟩
      | .done s' md rest =>
        let st := st.onServerMessage md.messageType
        if endStream || st.serverClosed then
          let st := { st with upstreamConn := none }
          some ⟨s', st, rest, [md], if rest.isEmpty then .cleared else .usedAfterClear⟩
        else (send2downstream cd endStream fuel s' st rest).map fun r => { r with written := md :: r.written }

def clears (endStream : Bool) (st : Stream) (t : MessageType) : Bool :=
  endStream || (st.onServerMessage t).serverClosed

theorem onServerMessage_of_not_clears {endStream : Bool} {st : Stream} {t : MessageType}
    (h : clears endStream st t = false) : st.onServerMessage t = st := by
  simp only [clears, Bool.or_eq_false_iff] at h
  cases t <;> simp_all [onServerMessage]

theorem send2downstream_returned {cd : Codec σ α} {endStream : Bool} {fuel : Nat} {s : σ}
    {st : Stream} {data : Bytes}
    {r : Sent σ α} (h : send2downstream cd endStream fuel s st data = some r)
    (hr : r.how = .returned) : r.stream = st := by
  induction fuel generalizing s data r with
  | zero => cases h
  | succ fuel ih =>
    simp only [send2downstream] at h
    split at h
    · obtain rfl := Option.some.inj h
      rfl
    · split at h
      · obtain rfl := Option.some.inj h
        rfl
      · obtain rfl := Option.some.inj h
        cases hr
      next md rest _ =>
        split at h
        · obtain rfl := Option.some.inj h
          dsimp only at hr
          split at hr <;> cases hr
        next hc =>
          have hst : st.onServerMessage md.messageType = st :=
            onServerMessage_of_not_clears (Bool.eq_false_iff.2 hc)
          rw [hst] at h
          obtain ⟨r', hrec, rfl⟩ := Option.map_eq_some_iff.1 h
          exact ih (r := r') hrec hr

theorem rest_nil_of_drain {cd : Codec σ α}
    (hkeep : ∀ s b s' r, cd.decodeAs .response s b = .wait s' r → r = b)
    {fuel : Nat} {s s' : σ} {data : Bytes}
    (h : drain (cd.decodeAs .response) fuel s data = ⟨s', [], [], .underflow⟩) : data = [] ∧ s = s' := by
  cases fuel with
  | zero => simp [drain] at h
  | succ fuel =>
    by_cases hne : data = []
    · subst hne
      rw [drain_nil] at h
      exact ⟨rfl, (Drained.mk.inj h).1⟩
    · cases hd : cd.decodeAs .response s data with
      | wait s₁ rest₁ =>
        rw [drain_wait hne hd] at h
        exact absurd ((hkeep _ _ _ _ hd).symm.trans (Drained.mk.inj h).2.1) hne
      | fail s₁ rest₁ e => simp [drain, hne, hd] at h
      | done s₁ m rest₁ => simp [drain, hne, hd] at h

/-- When nothing follows the message that clears the stream, the loop is `Framing.drain`, for a
codec that leaves all bytes in the buffer while it waits. -/
theorem send2downstream_of_drain {cd : Codec σ α}
    (hkeep : ∀ s b s' r, cd.decodeAs .response s b = .wait s' r → r = b)
    {endStream : Bool} {fuel : Nat} {s s' : σ} {st : Stream} {data rest : Bytes} {ms : List (Metadata α)}
    (h : drain (cd.decodeAs .response) fuel s data = ⟨s', rest, ms, .underflow⟩)
    (hlast : ∀ m ∈ ms.dropLast, clears endStream st m.messageType = false)
    (hend : ∀ m ∈ ms.getLast?, clears endStream st m.messageType = true → rest = []) :
    ∃ st' how, send2downstream cd endStream fuel s st data = some ⟨s', st', rest, ms, how⟩ ∧
      (how = .returned ∨ how = .cleared) := by
  induction fuel generalizing s data ms with
  | zero => simp [drain] at h
  | succ fuel ih =>
    by_cases hne : data = []
    · subst hne
      rw [drain_nil] at h
      simp only [Drained.mk.injEq, and_true] at h
      obtain ⟨rfl, rfl, rfl⟩ := h
      exact ⟨st, .returned, by simp [send2downstream], .inl rfl⟩
    cases hd : cd.decodeAs .response s data with
    | wait s₁ rest₁ =>
      rw [drain_wait hne hd] at h
      simp only [Drained.mk.injEq, and_true] at h
      obtain ⟨rfl, rfl, rfl⟩ := h
      exact ⟨st, .returned, by simp [send2downstream, hne, hd], .inl rfl⟩
    | fail s₁ rest₁ e => simp [drain, hne, hd] at h
    | done s₁ m rest₁ =>
      obtain ⟨ms, rfl, hrec⟩ := drain_done_inv hne hd h
      cases hc : clears endStream st m.messageType with
      | true =>
        -- the last message of the chunk: nothing may follow it
        obtain rfl : ms = [] := by
          cases ms with
          | nil => rfl
          | cons m' ms => simp [hlast m (by simp)] at hc
        obtain rfl := hend m (by simp) hc
        obtain ⟨rfl, rfl⟩ := rest_nil_of_drain hkeep hrec
        have hsc : (endStream || (st.onServerMessage m.messageType).serverClosed) = true := hc
        exact ⟨{ st.onServerMessage m.messageType with upstreamConn := none }, .cleared,
          by simp [send2downstream, hne, hd, hsc], .inr rfl⟩
      | false =>
        have hst := onServerMessage_of_not_clears hc
        have hlast' : ∀ m' ∈ ms.dropLast, clears endStream st m'.messageType = false := fun m' hm' => by
          cases ms with
          | nil => cases hm'
          | cons a l => exact hlast m' (List.mem_cons_of_mem m hm')
        have hend' : ∀ m' ∈ ms.getLast?, clears endStream st m'.messageType = true → rest = [] :=
            fun m' hm' => by
          cases ms with
          | nil => cases hm'
          | cons a l => exact hend m' (by rwa [List.getLast?_cons_cons])
        obtain ⟨st', how, hrun, hhow⟩ := ih hrec hlast' hend'
        have hsc : (endStream || st.serverClosed) = false := by simpa [clears, hst] using hc
        exact ⟨st', how, by simp [send2downstream, hne, hd, hst, hsc, hrun], hhow⟩

end Stream
end MetaProtocolProxy
