import MetaProtocolProxy.Lib.Process
import MetaProtocolProxy.Thrift.Codec
/-
# Thrift decoding and the chunks the bytes come in

A handler of the state machine waits without a trace, and one that does not wait does the same
when more bytes follow (`persists_handleState`). One handler, one start and one end of a frame are
therefore the moves of a steady process (`steady_move`), `decode` is a call of it
(`decodes_iff_calls`), and how the bytes are cut makes no difference (`decode_chunks_iff`).
-/
namespace MetaProtocolProxy.Thrift

open Framing (Step)
open Process (Move Steady Calls Feeds)
open DecoderStateMachine (run_done run_zero run_wait run_throws run_next)

variable {τ π α β : Type}

/-! ## Handlers and more bytes -/

/-- The same with `x` behind the buffer. -/
def Env.more (env : Env π) (x : Bytes) : Env π := { env with buffer := env.buffer ++ x }

def Handled.more (h : Handled π) (x : Bytes) : Handled π :=
  match h with
  | .waitForData => .waitForData
  | .next s m env => .next s m (env.more x)
  | .throws e => .throws e

def Persists (f : Env π → Handled π) : Prop := ∀ env x, f env ≠ .waitForData → f (env.more x) = (f env).more x

def Blind (f : Env π → Handled π) : Prop := ∀ env x, f (env.more x) = (f env).more x

section Handlers

open DecoderStateMachine

variable {P : Protocol π}

theorem Blind.persists {f : Env π → Handled π} (h : Blind f) : Persists f := fun env x _ => h env x

theorem blind_next (s : ProtocolState) (m : DecoderStateMachine) : Blind fun env : Env π => .next s m env :=
  fun _ _ => rfl

theorem blind_throws (e : Failure) : Blind fun _ : Env π => .throws e := fun _ _ => rfl

theorem blind_popReturnState (m : DecoderStateMachine) : Blind fun env : Env π => popReturnState m env := by
  intro env x
  unfold popReturnState
  split <;> rfl

theorem persists_read {read : π → Bytes → Read π α} (h : Thrift.Resumable read) {k : α → Env π → Handled π}
    (hk : ∀ v, Blind (k v)) :
    Persists fun env => (read env.proto env.buffer).handle fun v p rest =>
      k v { env with proto := p, buffer := rest } := by
  intro env x hwait
  cases hr : read env.proto env.buffer with
  | more => simp only [hr, Read.handle, ne_eq, not_true_eq_false] at hwait
  | ok v p rest =>
    simp only [hr, Env.more, h.ok hr x, Read.handle]
    exact hk v ⟨p, env.metadata, rest⟩ x
  | throws e =>
    simp only [hr, Env.more, h.throws hr x, Read.handle, Handled.more]

theorem persists_copy {w : Wire π α} (h : Thrift.Resumable w.read) (m : DecoderStateMachine)
    {k : α → DecoderStateMachine → Env π → Handled π} (hk : ∀ v m, Blind (k v m)) :
    Persists fun env => copy m env w k := by
  intro env x
  exact persists_read h
    (k := fun v env => k v (m.emit (w.write env.proto v)) { env with proto := (w.write env.proto v).2 })
    (fun v env x => hk v _ { env with proto := (w.write env.proto v).2 } x) env x

theorem persists_handleValue (hP : P.Resumable) (m : DecoderStateMachine) (t : FieldType)
    (ρ : ProtocolState) : Persists fun env => handleValue P m env t ρ := by
  cases t with
  | bool => exact persists_copy hP.bool m fun _ m => blind_next ρ m
  | byte => exact persists_copy hP.byte m fun _ m => blind_next ρ m
  | i16 => exact persists_copy hP.int16 m fun _ m => blind_next ρ m
  | i32 => exact persists_copy hP.int32 m fun _ m => blind_next ρ m
  | i64 => exact persists_copy hP.int64 m fun _ m => blind_next ρ m
  | double => exact persists_copy hP.double m fun _ m => blind_next ρ m
  | string => exact persists_copy hP.string m fun _ m => blind_next ρ m
  | struct => exact (blind_next _ _).persists
  | map => exact (blind_next _ _).persists
  | list => exact (blind_next _ _).persists
  | set => exact (blind_next _ _).persists
  | stop => exact (blind_throws _).persists
  | void => exact (blind_throws _).persists
  | other n => exact (blind_throws _).persists

theorem persists_element (hP : P.Resumable) (m : DecoderStateMachine) (t : FieldType) (ρ : ProtocolState) :
    Persists fun env => element P m env t ρ := by
  intro env x hwait
  have hvalue := persists_handleValue hP m t ρ env x
  simp only [element] at hwait ⊢
  cases hv : handleValue P m env t ρ with
  | waitForData => simp only [hv, ne_eq, not_true_eq_false] at hwait
  | next s m' env' =>
    simp only [hv] at hvalue
    simp only [hvalue (by simp), Handled.more]
  | throws e =>
    simp only [hv] at hvalue
    simp only [hvalue (by simp), Handled.more]

theorem persists_passthroughData (m : DecoderStateMachine) :
    Persists fun env : Env π => passthroughData m env := by
  intro env x hwait
  have hlen : ¬ env.buffer.length < m.bodyBytes.toNat := by
    intro hlt
    exact hwait (if_pos hlt)
  have hlen' : ¬ (env.more x).buffer.length < m.bodyBytes.toNat := by
    rw [Env.more, List.length_append]
    omega
  change passthroughData m (env.more x) = (passthroughData m env).more x
  rw [passthroughData, passthroughData, if_neg hlen, if_neg hlen']
  simp only [Env.more, Handled.more]
  rw [List.take_append_of_le_length (by omega), List.drop_append_of_le_length (by omega)]

theorem persists_messageBegin (hP : P.Resumable) (m : DecoderStateMachine) :
    Persists fun env => messageBegin P m env := by
  intro env x hwait
  simp only [messageBegin] at hwait ⊢
  cases hr : P.readMessageBegin env.metadata env.proto env.buffer with
  | more => simp only [hr, Read.handle, ne_eq, not_true_eq_false] at hwait
  | throws e => simp only [Env.more, (hP.messageBegin _).throws hr x, Read.handle, Handled.more]
  | ok md p rest =>
    simp only [Env.more, (hP.messageBegin _).ok hr x, Read.handle]
    split
    · -- the header is as long as before, since what follows it is in front of it and behind it
      cases md.frameSize with
      | none => rfl
      | some size =>
        rw [List.length_append, List.length_append, Nat.add_sub_add_right]
        rfl
    · rfl

theorem persists_sequenceValue (hP : P.Resumable) (m : DecoderStateMachine) (self : ProtocolState) :
    Persists fun env => sequenceValue P m env self := by
  unfold sequenceValue
  split
  · exact (blind_throws _).persists
  · split
    · exact (blind_popReturnState m).persists
    · exact persists_element hP m _ _

theorem persists_mapKey (hP : P.Resumable) (m : DecoderStateMachine) :
    Persists fun env => mapKey P m env := by
  unfold mapKey
  split
  · exact (blind_throws _).persists
  · split
    · exact (blind_popReturnState m).persists
    · exact persists_handleValue hP m _ _

theorem persists_mapValue (hP : P.Resumable) (m : DecoderStateMachine) :
    Persists fun env => mapValue P m env := by
  unfold mapValue
  split
  · exact (blind_throws _).persists
  · split
    · exact (blind_throws _).persists
    · exact persists_element hP m _ _

theorem persists_fieldValue (hP : P.Resumable) (m : DecoderStateMachine) :
    Persists fun env => fieldValue P m env := by
  unfold fieldValue
  split
  · exact (blind_throws _).persists
  · exact persists_handleValue hP m _ _

theorem persists_fieldBegin (hP : P.Resumable) (m : DecoderStateMachine) :
    Persists fun env => fieldBegin P m env := by
  refine persists_read hP.fieldBegin (k := fun field env =>
    if field.type = .stop then .next .structEnd m env
    else .next .fieldValue
      ((m.push { returnState := .fieldEnd, elemType := field.type }).emit
        (P.fieldBegin.write env.proto field))
      { env with proto := (P.fieldBegin.write env.proto field).2 }) fun field => ?_
  intro env x
  dsimp only
  split <;> rfl

theorem persists_fieldEnd (hP : P.Resumable) (m : DecoderStateMachine) :
    Persists fun env => fieldEnd P m env := by
  cases hstack : m.stack with
  | nil =>
    simp only [fieldEnd, hstack]
    exact persists_read hP.fieldEnd fun _ => blind_throws _
  | cons frame below =>
    simp only [fieldEnd, hstack]
    refine persists_read hP.fieldEnd (k := fun _ env =>
      .next .fieldBegin ({ m with stack := below }.emit (P.fieldEnd.write env.proto ()))
        { env with proto := (P.fieldEnd.write env.proto ()).2 }) fun _ => ?_
    intro env x
    rfl

theorem persists_structEnd (hP : P.Resumable) (m : DecoderStateMachine) :
    Persists fun env => structEnd P m env := by
  refine persists_read hP.structEnd (k := fun _ env =>
    let stop := P.fieldBegin.write env.proto { type := .stop }
    let written := P.structEnd.write stop.2 ()
    popReturnState ((m.emit stop).emit written) { env with proto := written.2 }) fun _ => ?_
  intro env x
  exact blind_popReturnState _ ⟨_, env.metadata, env.buffer⟩ x

theorem persists_sequenceBegin {w : Wire π (FieldType × UInt32)} (hw : Thrift.Resumable w.read)
    (m : DecoderStateMachine) (s self : ProtocolState) : Persists fun env => sequenceBegin m env w s self :=
  persists_copy hw m fun _ _ => blind_next self _

theorem persists_handleState (hP : P.Resumable) (m : DecoderStateMachine) :
    Persists fun env => handleState P m env := by
  unfold handleState
  cases m.state with
  | passthroughData => exact persists_passthroughData m
  | messageBegin => exact persists_messageBegin hP m
  | messageEnd => exact persists_copy hP.messageEnd m fun _ m => blind_next .done m
  | structBegin => exact persists_copy hP.structBegin m fun _ m => blind_next .fieldBegin m
  | structEnd => exact persists_structEnd hP m
  | fieldBegin => exact persists_fieldBegin hP m
  | fieldValue => exact persists_fieldValue hP m
  | fieldEnd => exact persists_fieldEnd hP m
  | mapBegin => exact persists_copy hP.mapBegin m fun _ _ => blind_next .mapKey _
  | mapKey => exact persists_mapKey hP m
  | mapValue => exact persists_mapValue hP m
  | mapEnd => exact persists_copy hP.mapEnd m fun _ m => blind_popReturnState m
  | listBegin => exact persists_sequenceBegin hP.listBegin m .listEnd .listValue
  | listValue => exact persists_sequenceValue hP m .listValue
  | listEnd => exact persists_copy hP.listEnd m fun _ m => blind_popReturnState m
  | setBegin => exact persists_sequenceBegin hP.setBegin m .setEnd .setValue
  | setValue => exact persists_sequenceValue hP m .setValue
  | setEnd => exact persists_copy hP.setEnd m fun _ m => blind_popReturnState m
  | done => exact (blind_throws _).persists

end Handlers

/-! ## The codec as a process -/

section Moves

variable (T : Transport τ) (P : Protocol π) (md : Metadata α)

/-- What an answer of a part of `decode` means for the moves. -/
def toMove (r : Step (ThriftCodec τ π) UInt8 Unit Failure) :
    Move (ThriftCodec τ π) UInt8 (Metadata α) Failure :=
  match r with
  | .wait _ _ => .wait
  | .done c _ rest => .go c rest
  | .fail c rest e => .fail c rest e

def handlerMove (c : ThriftCodec τ π) (buffer : Bytes) :
    Handled π → Move (ThriftCodec τ π) UInt8 (Metadata α) Failure
  | .waitForData => .wait
  | .next state m env => .go (c.withMachine { m with state } env) env.buffer
  | .throws e => .fail c buffer e

def endMove (c : ThriftCodec τ π) (m : DecoderStateMachine) (msg : MessageMetadata) (buffer : Bytes) :
    Move (ThriftCodec τ π) UInt8 (Metadata α) Failure :=
  match c.endFrame T msg m buffer md with
  | .wait _ _ => .wait
  | .done c md rest => .deliver c md rest
  | .fail c rest e => .fail c rest e

/-- The smallest steps of `decode`. -/
def move (c : ThriftCodec τ π) (buffer : Bytes) : Move (ThriftCodec τ π) UInt8 (Metadata α) Failure :=
  if c.frameEnded then .deliver c.complete md buffer
  else if c.frameStarted then
    match c.stateMachine, c.metadata with
    | none, _ => .fail c buffer (.panicked "assert failure: state_machine_ != nullptr")
    | some _, none => .fail c buffer (.nullDereference "metadata_")
    | some m, some msg =>
      if m.state = .done then endMove T md c m msg buffer
      else handlerMove c buffer (m.handleState P ⟨c.protocol, msg, buffer⟩)
  else
    match c.metadata with
    | none => .go { c with metadata := some {} } buffer
    | some msg => toMove (c.startFrame T P msg buffer)

end Moves

section Calls

variable {T : Transport τ} {P : Protocol π} {md : Metadata α} {c : ThriftCodec τ π} {m : DecoderStateMachine}
  {msg : MessageMetadata} {env : Env π} {b : Bytes} {r : Step (ThriftCodec τ π) UInt8 (Metadata α) Failure}

def Underway (c : ThriftCodec τ π) : Prop := c.frameStarted = true ∧ c.frameEnded = false

theorem ThriftCodec.withMachine_self (hm : c.stateMachine = some m) (hmsg : c.metadata = some msg)
    (b : Bytes) : c.withMachine m ⟨c.protocol, msg, b⟩ = c := by
  rw [ThriftCodec.withMachine, ← hm, ← hmsg]

theorem ThriftCodec.endFrame_wait {c' : ThriftCodec τ π} {r : Bytes}
    (h : c.endFrame T msg m b md = .wait c' r) : c' = c ∧ r = b := by
  unfold ThriftCodec.endFrame at h
  split at h
  · cases h
    exact ⟨rfl, rfl⟩
  · cases h
  · dsimp only at h
    split at h <;> cases h

/-- The answer of `decode` once the state machine has run. -/
def finish (T : Transport τ) (md : Metadata α) (c : ThriftCodec τ π) :
    Ran π → Step (ThriftCodec τ π) UInt8 (Metadata α) Failure
  | .waitForData m env => .wait (c.withMachine m env) env.buffer
  | .throws m env e => .fail (c.withMachine m env) env.buffer e
  | .done m env => (c.withMachine m env).endFrame T env.metadata m env.buffer md

theorem decodeFrame_eq (hm : c.stateMachine = some m) (hmsg : c.metadata = some msg) (n : Nat) :
    c.decodeFrame T P n b md = (m.run P n ⟨c.protocol, msg, b⟩).map (finish T md c) := by
  simp only [ThriftCodec.decodeFrame, hm, hmsg]
  cases m.run P n ⟨c.protocol, msg, b⟩ with
  | none => rfl
  | some ran => cases ran <;> rfl

theorem move_underway (hc : Underway c) (m : DecoderStateMachine) (env : Env π) :
    move T P md (c.withMachine m env) env.buffer =
      if m.state = .done then endMove T md (c.withMachine m env) m env.metadata env.buffer
      else handlerMove (c.withMachine m env) env.buffer (m.handleState P env) := by
  obtain ⟨hs, he⟩ := hc
  simp only [move, ThriftCodec.withMachine, hs, he, Bool.false_eq_true, if_false, if_true]

theorem calls_done (hc : Underway c) (hm : m.state = .done) :
    Calls (move T P md) (c.withMachine m env) env.buffer r ↔ r = finish T md c (.done m env) := by
  apply Process.calls_iff_of_answer
  intro n
  rw [Process.call, move_underway hc, if_pos hm, endMove, finish]
  cases h : (c.withMachine m env).endFrame T env.metadata m env.buffer md with
  | wait c' rest =>
    obtain ⟨rfl, rfl⟩ := ThriftCodec.endFrame_wait h
    rfl
  | done c' md' rest => rfl
  | fail c' rest e => rfl

theorem calls_of_run (hc : Underway c) {n : Nat} {ran : Ran π} (h : m.run P n env = some ran) :
    Calls (move T P md) (c.withMachine m env) env.buffer (finish T md c ran) := by
  induction n generalizing m env with
  | zero =>
    by_cases hm : m.state = .done
    · rw [run_done P hm] at h
      cases h
      exact (calls_done hc hm).2 rfl
    · rw [run_zero hm] at h
      cases h
  | succ n ih =>
    by_cases hm : m.state = .done
    · rw [run_done P hm] at h
      cases h
      exact (calls_done hc hm).2 rfl
    · have hmove : move T P md (c.withMachine m env) env.buffer = _ :=
        (move_underway hc m env).trans (if_neg hm)
      cases hh : m.handleState P env with
      | waitForData =>
        rw [run_wait hm hh] at h
        rw [hh] at hmove
        cases h
        exact ⟨1, by rw [Process.call, hmove]; rfl⟩
      | throws e =>
        rw [run_throws hm hh] at h
        rw [hh] at hmove
        cases h
        exact ⟨1, by rw [Process.call, hmove]; rfl⟩
      | next s m' env' =>
        rw [run_next hm hh] at h
        rw [hh] at hmove
        exact Calls.go hmove (ih h)

theorem run_of_call (hc : Underway c) {n : Nat}
    (h : Process.call (move T P md) n (c.withMachine m env) env.buffer = some r) :
    ∃ k ran, m.run P k env = some ran ∧ finish T md c ran = r := by
  induction n generalizing m env with
  | zero => cases h
  | succ n ih =>
    by_cases hm : m.state = .done
    · exact ⟨0, _, run_done P hm env 0, ((calls_done hc hm).1 ⟨n + 1, h⟩).symm⟩
    · rw [Process.call, move_underway hc m env, if_neg hm] at h
      cases hh : m.handleState P env with
      | waitForData =>
        simp only [hh, handlerMove, Option.some.injEq] at h
        exact ⟨1, _, run_wait hm hh 0, h⟩
      | throws e =>
        simp only [hh, handlerMove, Option.some.injEq] at h
        exact ⟨1, _, run_throws hm hh 0, h⟩
      | next s m' env' =>
        simp only [hh, handlerMove] at h
        obtain ⟨k, ran, hk, hran⟩ := ih h
        exact ⟨k + 1, ran, (run_next hm hh k).trans hk, hran⟩

theorem decodeFrame_iff_calls (hc : Underway c) :
    (∃ n, c.decodeFrame T P n b md = some r) ↔ Calls (move T P md) c b r := by
  cases hm : c.stateMachine with
  | none =>
    rw [Process.calls_iff_of_answer (a := .fail c b (.panicked "assert failure: state_machine_ != nullptr"))]
    · simp only [ThriftCodec.decodeFrame, hm, Option.some.injEq, exists_const]
      exact eq_comm
    · intro n
      simp only [Process.call, move, hc.1, hc.2, hm, Bool.false_eq_true, if_false, if_true]
  | some m =>
    cases hmsg : c.metadata with
    | none =>
      rw [Process.calls_iff_of_answer (a := .fail c b (.nullDereference "metadata_"))]
      · simp only [ThriftCodec.decodeFrame, hm, hmsg, Option.some.injEq, exists_const]
        exact eq_comm
      · intro n
        simp only [Process.call, move, hc.1, hc.2, hm, hmsg, Bool.false_eq_true, if_false, if_true]
    | some msg =>
      have hself := ThriftCodec.withMachine_self hm hmsg b
      simp only [decodeFrame_eq hm hmsg, Option.map_eq_some_iff]
      constructor
      · rintro ⟨n, ran, hran, rfl⟩
        have hcalls : Calls (move T P md) (c.withMachine m ⟨c.protocol, msg, b⟩) b _ := calls_of_run hc hran
        rwa [hself] at hcalls
      · rintro ⟨n, hn⟩
        rw [← hself] at hn
        have hrun : ∃ k ran, m.run P k ⟨c.protocol, msg, b⟩ = some ran ∧ finish T md c ran = r :=
          run_of_call hc hn
        exact hrun

theorem ThriftCodec.startFrame_wait {c' : ThriftCodec τ π} {rest : Bytes}
    (h : c.startFrame T P msg b = .wait c' rest) :
    c' = { c with metadata := some msg } ∧ rest = b := by
  unfold ThriftCodec.startFrame at h
  dsimp only at h
  split at h
  · cases h
    exact ⟨rfl, rfl⟩
  · cases h
  · split at h
    · cases h
    · split at h <;> cases h

theorem ThriftCodec.setProtocol_frameEnded {c' : ThriftCodec τ π} (h : c.setProtocol P msg = .ok c') :
    c'.frameEnded = c.frameEnded := by
  unfold ThriftCodec.setProtocol at h
  split at h
  · cases h
    rfl
  · split at h
    · cases h
      rfl
    · split at h <;> cases h
      rfl

theorem ThriftCodec.startFrame_underway {c' : ThriftCodec τ π} {rest : Bytes} (he : c.frameEnded = false)
    (h : c.startFrame T P msg b = .done c' () rest) : Underway c' := by
  unfold ThriftCodec.startFrame at h
  dsimp only at h
  split at h
  · cases h
  · cases h
  · split at h
    · cases h
    · rename_i hset
      split at h
      · cases h
      · cases h
        exact ⟨rfl, (ThriftCodec.setProtocol_frameEnded hset).trans he⟩

/-- The start of a frame, once `metadata_` is there. -/
theorem startFrame_iff_calls (he : c.frameEnded = false) (hs : c.frameStarted = false)
    (hmsg : c.metadata = some msg) :
    (∃ n, c.decode T P n b md = some r) ↔ Calls (move T P md) c b r := by
  have hmove : move T P md c b = toMove (c.startFrame T P msg b) := by
    simp only [move, he, hs, hmsg, Bool.false_eq_true, if_false]
  cases hstart : c.startFrame T P msg b with
  | wait c' rest =>
    obtain ⟨hc', hrest⟩ := ThriftCodec.startFrame_wait hstart
    have hself : { c with metadata := some msg } = c := by rw [← hmsg]
    rw [hc', hself, hrest] at hstart
    rw [Process.calls_iff_of_answer (a := .wait c b)]
    · simp only [ThriftCodec.decode, he, hs, hmsg, Option.getD_some, hstart, Bool.false_eq_true, if_false,
        Option.some.injEq, exists_const]
      exact eq_comm
    · intro n
      rw [Process.call, hmove, hstart, toMove]
  | fail c' rest e =>
    rw [Process.calls_iff_of_answer (a := .fail c' rest e)]
    · simp only [ThriftCodec.decode, he, hs, hmsg, Option.getD_some, hstart, Bool.false_eq_true, if_false,
        Option.some.injEq, exists_const]
      exact eq_comm
    · intro n
      rw [Process.call, hmove, hstart, toMove]
  | done c' _ rest =>
    rw [hstart] at hmove
    rw [Process.calls_go_iff hmove, ← decodeFrame_iff_calls (ThriftCodec.startFrame_underway he hstart)]
    simp only [ThriftCodec.decode, he, hs, hmsg, Option.getD_some, hstart, Bool.false_eq_true, if_false]

/-- `decode` returns `r` for some number of handlers exactly if a call of the process does. -/
theorem decode_iff_calls : (∃ n, c.decode T P n b md = some r) ↔ Calls (move T P md) c b r := by
  by_cases hended : c.frameEnded = true
  · rw [Process.calls_iff_of_answer (a := .done c.complete md b)]
    · simp only [ThriftCodec.decode, hended, if_true, Option.some.injEq, exists_const]
      exact eq_comm
    · intro n
      simp only [Process.call, move, hended, if_true]
  have he : c.frameEnded = false := by simpa using hended
  by_cases hstarted : c.frameStarted = true
  · have hdec : ∀ n, c.decode T P n b md = c.decodeFrame T P n b md := by
      intro n
      simp only [ThriftCodec.decode, he, hstarted, if_true, if_false, Bool.false_eq_true]
    simp only [hdec]
    exact decodeFrame_iff_calls ⟨hstarted, he⟩
  have hs : c.frameStarted = false := by simpa using hstarted
  cases hmsg : c.metadata with
  | some msg => exact startFrame_iff_calls he hs hmsg
  | none =>
    have hmove : move T P md c b = .go { c with metadata := some {} } b := by
      simp only [move, he, hs, hmsg, Bool.false_eq_true, if_false]
    have hdec : ∀ n, c.decode T P n b md = ThriftCodec.decode T P { c with metadata := some {} } n b md := by
      intro n
      rw [ThriftCodec.decode, if_neg hended, if_neg hstarted, hmsg, ThriftCodec.decode,
        if_neg hended, if_neg hstarted]
      rfl
    rw [Process.calls_go_iff hmove, ← startFrame_iff_calls (c := { c with metadata := some {} }) he hs rfl]
    simp only [hdec]

end Calls

/-! ## Moves and more bytes -/

section Steady

variable {T : Transport τ} {P : Protocol π} (hT : T.Resumable) (hP : P.Resumable) (md : Metadata α)
  (c : ThriftCodec τ π) (msg : MessageMetadata) (m : DecoderStateMachine) (b x : Bytes)

include hT in
theorem startFrame_more (hwait : (toMove (c.startFrame T P msg b) : Move _ _ (Metadata α) _) ≠ .wait) :
    (toMove (c.startFrame T P msg (b ++ x)) : Move _ _ (Metadata α) _) =
      (toMove (c.startFrame T P msg b)).more x := by
  simp only [ThriftCodec.startFrame] at hwait ⊢
  cases hr : T.decodeFrameStart msg c.transport b with
  | more => simp only [hr, toMove, ne_eq, not_true_eq_false] at hwait
  | throws e =>
    simp only [(hT.frameStart msg).throws hr x]
    rfl
  | ok msg' t rest =>
    simp only [(hT.frameStart msg).ok hr x]
    split
    · rfl
    · split <;> rfl

include hT in
theorem endMove_more (hwait : endMove T md c m msg b ≠ .wait) :
    endMove T md c m msg (b ++ x) = (endMove T md c m msg b).more x := by
  simp only [endMove, ThriftCodec.endFrame] at hwait ⊢
  cases hr : T.decodeFrameEnd c.transport b with
  | more => simp only [hr, ne_eq, not_true_eq_false] at hwait
  | throws e =>
    simp only [hT.frameEnd.throws hr x]
    rfl
  | ok _ t rest =>
    simp only [hT.frameEnd.ok hr x]
    cases ThriftCodec.toMetadata T { c with transport := t } msg m.originMessage md <;> rfl

include hP in
theorem handlerMove_more
    (hwait : (handlerMove c b (m.handleState P ⟨c.protocol, msg, b⟩) : Move _ _ (Metadata α) _) ≠ .wait) :
    (handlerMove c (b ++ x) (m.handleState P ⟨c.protocol, msg, b ++ x⟩) : Move _ _ (Metadata α) _) =
      (handlerMove c b (m.handleState P ⟨c.protocol, msg, b⟩)).more x := by
  have hmore := persists_handleState hP m ⟨c.protocol, msg, b⟩ x
  cases hh : m.handleState P ⟨c.protocol, msg, b⟩ with
  | waitForData => simp only [hh, handlerMove, ne_eq, not_true_eq_false] at hwait
  | next s m' env' =>
    simp only [hh] at hmore
    exact congrArg (handlerMove c (b ++ x)) (hmore (by simp))
  | throws e =>
    simp only [hh] at hmore
    exact congrArg (handlerMove c (b ++ x)) (hmore (by simp))

include hT hP in
theorem steady_move : Steady (move T P md) := by
  apply Process.steady_of_more
  intro c b x hwait
  by_cases he : c.frameEnded = true
  · simp only [move, he, if_true]
    rfl
  by_cases hs : c.frameStarted = true
  · cases hm : c.stateMachine with
    | none =>
      simp only [move, he, hs, hm, if_true, if_false, Bool.false_eq_true]
      rfl
    | some m =>
      cases hmsg : c.metadata with
      | none =>
        simp only [move, he, hs, hm, hmsg, if_true, if_false, Bool.false_eq_true]
        rfl
      | some msg =>
        simp only [move, he, hs, hm, hmsg, if_true, if_false, Bool.false_eq_true] at hwait ⊢
        by_cases hd : m.state = .done
        · simp only [hd, if_true] at hwait ⊢
          exact endMove_more hT md c msg m b x hwait
        · simp only [hd, if_false] at hwait ⊢
          exact handlerMove_more hP c msg m b x hwait
  · cases hmsg : c.metadata with
    | none =>
      simp only [move, he, hs, hmsg, if_false, Bool.false_eq_true]
      rfl
    | some msg =>
      simp only [move, he, hs, hmsg, if_false, Bool.false_eq_true] at hwait ⊢
      exact startFrame_more hT c msg b x hwait

end Steady

/-! ## Chunks -/

/-- One call of `ThriftCodec::decode` returns `r`. -/
def Decodes (T : Transport τ) (P : Protocol π) (md : Metadata α) (c : ThriftCodec τ π) (buffer : Bytes)
    (r : Step (ThriftCodec τ π) UInt8 (Metadata α) Failure) : Prop :=
  ∃ n, c.decode T P n buffer md = some r

theorem decodes_eq_calls (T : Transport τ) (P : Protocol π) (md : Metadata α) :
    Decodes T P md = Calls (move T P md) := by
  funext c b r
  exact propext decode_iff_calls

/-- Bytes that come in chunks, with calls of `decode` after each chunk as long as messages are
decoded, give the messages, the error and what is left of the bytes that they give all at once. -/
theorem decode_chunks_iff {T : Transport τ} {P : Protocol π} (hT : T.Resumable) (hP : P.Resumable)
    (md : Metadata α)
    (c : ThriftCodec τ π) (chunk : Bytes) (chunks : List Bytes) (msgs : List (Metadata α))
    (ended : Process.Ended (ThriftCodec τ π) UInt8 Failure) :
    Feeds (Decodes T P md) c [] (chunk :: chunks) msgs ended ↔
      Feeds (Decodes T P md) c [] [(chunk :: chunks).flatten] msgs ended := by
  rw [decodes_eq_calls]
  exact Process.feeds_iff_whole (steady_move hT hP md)

/-- A call of `f` without arguments: a frame of fourteen bytes. -/
def callFrame : Bytes :=
  [0, 0, 0, 14, 0x80, 1, 0, 1, 0, 0, 0, 1, 0x66, 0, 0, 0, 7, 0]

theorem run_callFrame :
    DecoderStateMachine.run binary 5 {} ⟨(), { frameSize := some 14 }, callFrame.drop 4⟩ =
      some (.done { state := .done, stack := [], originMessage := callFrame.drop 4 }
        ⟨(), ⟨some 14, none, some [0x66], some 7, some .call, none⟩, []⟩) := by
  decide +kernel

/-- The frame at once: the start of the frame, five handlers and the end of the frame. -/
theorem decodes_callFrame :
    Decodes framed binary
      (Metadata.ofType .request : Metadata Unit) { transport := (), protocol := () } callFrame
      (.done { transport := (), protocol := () }
        { properties := [("method", .string "f")], requestId := 7, originMessage := callFrame } []) := by
  have hstart :
      framed.decodeFrameStart {} () callFrame = .ok { frameSize := some 14 } () (callFrame.drop 4) :=
    framed_start (n := 14) (by decide) {} (callFrame.drop 4)
  refine ⟨5, ?_⟩
  rw [ThriftCodec.decode]
  simp only [ThriftCodec.startFrame, hstart, Bool.false_eq_true, if_false, Option.getD_none,
    ThriftCodec.setProtocol]
  simp only [ThriftCodec.decodeFrame, run_callFrame]
  rfl

/-- The frame is decoded when it comes in three pieces, since it is when it comes in one. -/
theorem callFrame_pieces :
    Feeds (Decodes framed binary (Metadata.ofType .request : Metadata Unit))
      { transport := (), protocol := () } []
      [[0, 0], [0, 14, 0x80, 1, 0, 1, 0, 0, 0, 1, 0x66], [0, 0, 0, 7, 0]]
      [{ properties := [("method", .string "f")], requestId := 7, originMessage := callFrame }]
      (.waiting { transport := (), protocol := (), metadata := some {} } []) := by
  rw [decode_chunks_iff resumable_framed resumable_binary]
  exact .wait (.done decodes_callFrame (.wait ⟨0, rfl⟩)) .nil

end MetaProtocolProxy.Thrift
