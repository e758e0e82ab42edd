import MetaProtocolProxy.Thrift.Binary
import MetaProtocolProxy.Thrift.Machine
/-
# Thrift messages are copied as they are

A message is a header and a struct whose fields nest to any depth. Its encoding is what a protocol
writes for it part by part, in whatever state it is. With a faithful protocol the machine reads that
encoding, writes the same bytes again and stops at its end (`run_message`).

`Copies s S bytes s' S'` is the unit the proof is built from: in state `s` with stack `S` the
machine moves `bytes` from the buffer to its message and gets to `s'` with `S'`. Such moves compose,
and a value of a message is one of them, by induction on the message.
-/
namespace MetaProtocolProxy.Thrift

variable {π : Type}

/-! ## Messages -/

mutual

inductive Value : ValueType → Type
  | bool (v : Bool) : Value .bool
  | byte (v : UInt8) : Value .byte
  | i16 (v : Int16) : Value .i16
  | i32 (v : Int32) : Value .i32
  | i64 (v : Int64) : Value .i64
  | double (bits : UInt64) : Value .double
  | string (text : Bytes) : Value .string
  | struct (name : Bytes) (fields : Fields) : Value .struct
  | map (k v : ValueType) (entries : Entries k v) : Value .map
  | list (t : ValueType) (values : Values t) : Value .list
  | set (t : ValueType) (values : Values t) : Value .set

inductive Fields : Type
  | nil : Fields
  | cons (name : Bytes) (id : Int16) (t : ValueType) (value : Value t) (fields : Fields) : Fields

inductive Entries : ValueType → ValueType → Type
  | nil (k v : ValueType) : Entries k v
  | cons (k v : ValueType) (key : Value k) (value : Value v) (entries : Entries k v) : Entries k v

inductive Values : ValueType → Type
  | nil (t : ValueType) : Values t
  | cons (t : ValueType) (value : Value t) (values : Values t) : Values t

end

/-- The number of key-value pairs. -/
def Entries.length {k v : ValueType} : Entries k v → Nat
  | nil _ _ => 0
  | cons _ _ _ _ entries => entries.length + 1

def Values.length {t : ValueType} : Values t → Nat
  | nil _ => 0
  | cons _ _ values => values.length + 1

/-- A message: a header and a struct. -/
structure Message where
  header : MessageHeader
  name : Bytes := []
  fields : Fields

mutual

/-- The strings, containers and field ids of a value keep to the limits. -/
def Value.Within (L : Limits) : {t : ValueType} → Value t → Prop
  | _, .string text => L.text text.length
  | _, .struct _ fields => fields.Within L
  | _, .map _ _ entries => L.size entries.length ∧ entries.Within L
  | _, .list _ values => L.size values.length ∧ values.Within L
  | _, .set _ values => L.size values.length ∧ values.Within L
  | _, .bool _ | _, .byte _ | _, .i16 _ | _, .i32 _ | _, .i64 _ | _, .double _ => True

def Fields.Within (L : Limits) : Fields → Prop
  | .nil => True
  | .cons _ id _ value fields => L.ids id ∧ value.Within L ∧ fields.Within L

def Entries.Within (L : Limits) : {k v : ValueType} → Entries k v → Prop
  | _, _, .nil _ _ => True
  | _, _, .cons _ _ key value entries => key.Within L ∧ value.Within L ∧ entries.Within L

def Values.Within (L : Limits) : {t : ValueType} → Values t → Prop
  | _, .nil _ => True
  | _, .cons _ value values => value.Within L ∧ values.Within L

end

def Message.Within (L : Limits) (msg : Message) : Prop :=
  L.text msg.header.methodName.length ∧ msg.fields.Within L

/-! ## Their encoding -/

def andThen (w w' : π → Bytes × π) (q : π) : Bytes × π :=
  ((w q).1 ++ (w' (w q).2).1, (w' (w q).2).2)

mutual

def Value.write (P : Protocol π) : {t : ValueType} → Value t → π → Bytes × π
  | _, .bool v, q => P.bool.write q v
  | _, .byte v, q => P.byte.write q v
  | _, .i16 v, q => P.int16.write q v
  | _, .i32 v, q => P.int32.write q v
  | _, .i64 v, q => P.int64.write q v
  | _, .double v, q => P.double.write q v
  | _, .string v, q => P.string.write q v
  | _, .struct name fields, q => andThen (P.structBegin.write · name) (fields.write P) q
  | _, .map k v entries, q =>
    andThen (P.mapBegin.write · (k.toFieldType, v.toFieldType, UInt32.ofNat entries.length))
      (andThen (entries.write P) (P.mapEnd.write · ())) q
  | _, .list t values, q =>
    andThen (P.listBegin.write · (t.toFieldType, UInt32.ofNat values.length))
      (andThen (values.write P) (P.listEnd.write · ())) q
  | _, .set t values, q =>
    andThen (P.setBegin.write · (t.toFieldType, UInt32.ofNat values.length))
      (andThen (values.write P) (P.setEnd.write · ())) q

/-- The fields of a struct, the stop field and the struct's end. -/
def Fields.write (P : Protocol π) : Fields → π → Bytes × π
  | .nil, q => andThen (P.fieldBegin.write · { type := .stop }) (P.structEnd.write · ()) q
  | .cons name id t value fields, q =>
    andThen (P.fieldBegin.write · ⟨name, t.toFieldType, id⟩)
      (andThen (value.write P) (andThen (P.fieldEnd.write · ()) (fields.write P))) q

def Entries.write (P : Protocol π) : {k v : ValueType} → Entries k v → π → Bytes × π
  | _, _, .nil _ _, q => ([], q)
  | _, _, .cons _ _ key value entries, q =>
    andThen (key.write P) (andThen (value.write P) (entries.write P)) q

def Values.write (P : Protocol π) : {t : ValueType} → Values t → π → Bytes × π
  | _, .nil _, q => ([], q)
  | _, .cons _ value values, q => andThen (value.write P) (values.write P) q

end

variable (P : Protocol π)

def Message.write (msg : Message) : π → Bytes × π :=
  andThen (P.writeMessageBegin · msg.header.metadata)
    (andThen (P.structBegin.write · msg.name) (andThen (msg.fields.write P) (P.messageEnd.write · ())))

/-- The encoding a protocol in state `q` gives a message. -/
def Message.encoding (q : π) (msg : Message) : Bytes := (msg.write P q).1

/-! ## Moves of the machine -/

/-- A machine at work on a message. -/
abbrev machine (s : ProtocolState) (S : List Frame) (o : Bytes) : DecoderStateMachine :=
  { state := s, stack := S, originMessage := o }

/-- After some handlers a run goes on from `m'`, `env'`. -/
def Reaches (m : DecoderStateMachine) (env : Env π) (m' : DecoderStateMachine) (env' : Env π) :
    Prop :=
  ∃ n, ∀ k, DecoderStateMachine.run P (n + k) m env = DecoderStateMachine.run P k m' env'

/-- From `s`, `S` the machine moves `bytes` to its message and gets to `s'`, `S'`. -/
def Copies (md : MessageMetadata) (s : ProtocolState) (S : List Frame) (bytes : Bytes)
    (s' : ProtocolState) (S' : List Frame) : Prop :=
  ∀ o p rest, ∃ p', Reaches P (machine s S o) ⟨p, md, bytes ++ rest⟩ (machine s' S' (o ++ bytes))
    ⟨p', md, rest⟩

/-- `handleValue` takes up a value of type `t` encoded as `bytes`: it may push a frame, and behind
what it pushed the value is copied, whatever the stack below has become. -/
def Handles (md : MessageMetadata) (t : FieldType) (bytes : Bytes) : Prop :=
  ∀ s ρ S o p rest, ∃ s' pushed o' p' rest',
    DecoderStateMachine.handleValue P (machine s S o) ⟨p, md, bytes ++ rest⟩ t ρ =
      .next s' (machine s (pushed ++ S) o') ⟨p', md, rest'⟩ ∧
    ∀ S', ∃ p'', Reaches P (machine s' (pushed ++ S') o') ⟨p', md, rest'⟩
      (machine ρ S' (o ++ bytes)) ⟨p'', md, rest⟩

section Moves

variable {P : Protocol π} {md : MessageMetadata} {s s' s'' : ProtocolState} {S S' S'' : List Frame}
    {a b : Bytes}

theorem Reaches.refl (P : Protocol π) (m : DecoderStateMachine) (env : Env π) : Reaches P m env m env :=
  ⟨0, fun k => by rw [Nat.zero_add]⟩

theorem Reaches.trans {m m' m'' : DecoderStateMachine} {env env' env'' : Env π} (h : Reaches P m env m' env')
    (h' : Reaches P m' env' m'' env'') : Reaches P m env m'' env'' := by
  obtain ⟨n, hn⟩ := h
  obtain ⟨n', hn'⟩ := h'
  exact ⟨n + n', fun k => by rw [Nat.add_assoc, hn, hn']⟩

theorem Reaches.step {o o' : Bytes} {env env' : Env π} (hs : s ≠ .done)
    (h : (machine s S o).handleState P env = .next s' (machine s S' o') env') :
    Reaches P (machine s S o) env (machine s' S' o') env' := by
  refine ⟨1, fun k => ?_⟩
  rw [Nat.add_comm, DecoderStateMachine.run_next hs h]

theorem Copies.trans (h : Copies P md s S a s' S') (h' : Copies P md s' S' b s'' S'') :
    Copies P md s S (a ++ b) s'' S'' := by
  intro o p rest
  obtain ⟨p', hp'⟩ := h o p (b ++ rest)
  obtain ⟨p'', hp''⟩ := h' (o ++ a) p' rest
  rw [← List.append_assoc] at hp'
  rw [List.append_assoc] at hp''
  exact ⟨p'', hp'.trans hp''⟩

/-- A handler that copies `a` is a move. -/
theorem Copies.step (hs : s ≠ .done)
    (h : ∀ o p rest, ∃ p', (machine s S o).handleState P ⟨p, md, a ++ rest⟩ =
      .next s' (machine s S' (o ++ a)) ⟨p', md, rest⟩) : Copies P md s S a s' S' := by
  intro o p rest
  obtain ⟨p', hp'⟩ := h o p rest
  exact ⟨p', Reaches.step hs hp'⟩

theorem copy_of_readsBack {α : Type} {w : Wire π α} {like : α → α → Prop} {v : α}
    (h : w.ReadsBack like v) (q : π)
    (m : DecoderStateMachine) (p : π) (md : MessageMetadata) (rest : Bytes) : ∃ v' p', like v v' ∧
      ∀ f : α → DecoderStateMachine → Env π → Handled π, m.copy ⟨p, md, (w.write q v).1 ++ rest⟩ w f =
        f v' { m with originMessage := m.originMessage ++ (w.write q v).1 } ⟨p', md, rest⟩ := by
  obtain ⟨v', p', hread, hlike, hwrite⟩ := h p q rest
  refine ⟨v', (w.write p' v').2, hlike, fun f => ?_⟩
  simp only [DecoderStateMachine.copy, hread, Read.handle, DecoderStateMachine.emit, hwrite]

theorem copy_of_readsBack_eq {α : Type} {w : Wire π α} {v : α} (h : w.ReadsBack Eq v) (q : π)
    (m : DecoderStateMachine) (p : π) (md : MessageMetadata) (rest : Bytes) : ∃ p',
      ∀ f : α → DecoderStateMachine → Env π → Handled π, m.copy ⟨p, md, (w.write q v).1 ++ rest⟩ w f =
        f v { m with originMessage := m.originMessage ++ (w.write q v).1 } ⟨p', md, rest⟩ := by
  obtain ⟨v', p', rfl, hcopy⟩ := copy_of_readsBack h q m p md rest
  exact ⟨p', hcopy⟩

end Moves

/-! ## The handlers -/

section Handlers

open DecoderStateMachine

variable {P : Protocol π} {L : Limits} (hP : P.Faithful L) {md : MessageMetadata} {S : List Frame} {a : Bytes}
  {t : FieldType}

include hP in
theorem copies_structBegin (q : π) (name : Bytes) :
    Copies P md .structBegin S (P.structBegin.write q name).1 .fieldBegin S := by
  refine Copies.step (by decide) fun o p rest => ?_
  obtain ⟨name', p', -, hcopy⟩ :=
    copy_of_readsBack (hP.structBegin name) q (machine .structBegin S o) p md rest
  exact ⟨p', hcopy _⟩

include hP in
theorem copies_fieldBegin (q : π) (name : Bytes) (t : ValueType) {id : Int16} (hid : L.ids id) :
    Copies P md .fieldBegin S (P.fieldBegin.write q ⟨name, t.toFieldType, id⟩).1 .fieldValue
      ({ returnState := .fieldEnd, elemType := t.toFieldType } :: S) := by
  refine Copies.step (by decide) fun o p rest => ?_
  obtain ⟨field, p', hread, ⟨htype, -⟩, hwrite⟩ := hP.field name t id hid p q rest
  have hstop : field.type ≠ .stop := htype ▸ t.toFieldType_ne_stop
  refine ⟨(P.fieldBegin.write p' field).2, ?_⟩
  simp only [handleState, fieldBegin, hread, Read.handle, if_neg hstop, emit, push, hwrite]
  rw [htype]

include hP in
theorem copies_stop (q : π) (f : Frame) :
    Copies P md .fieldBegin (f :: S)
      (andThen (P.fieldBegin.write · { type := .stop }) (P.structEnd.write · ()) q).1 f.returnState S := by
  intro o p rest
  have hend : ∀ q, (P.structEnd.write q ()).1 = [] := hP.structEnd.2.write_eq_nil hP.structEnd.1
  simp only [andThen, hend, List.append_nil]
  obtain ⟨field, p', hread, rfl, -⟩ := hP.stop p q rest
  obtain ⟨p'', hread'⟩ := hP.structEnd.2 p' rest
  have hbegin : (machine .fieldBegin (f :: S) o).handleState P
      ⟨p, md, (P.fieldBegin.write q { type := .stop }).1 ++ rest⟩ =
      .next .structEnd (machine .fieldBegin (f :: S) o) ⟨p', md, rest⟩ := by
    simp only [handleState, fieldBegin, hread, Read.handle, if_true]
  obtain ⟨r, hr⟩ : ∃ r, (machine .structEnd (f :: S) o).handleState P ⟨p', md, rest⟩ =
      .next f.returnState (machine .structEnd S (o ++ (P.fieldBegin.write q { type := .stop }).1))
          ⟨r, md, rest⟩ := by
    refine ⟨(P.structEnd.write (P.fieldBegin.write p'' { type := .stop }).2 ()).2, ?_⟩
    simp only [handleState, structEnd, hread', Read.handle, emit, popReturnState, hend, List.append_nil,
      hP.stop.write_eq q p'']
  exact ⟨r, (Reaches.step (by decide) hbegin).trans (Reaches.step (by decide) hr)⟩

include hP in
theorem copies_fieldEnd (q : π) (f : Frame) :
    Copies P md .fieldEnd (f :: S) (P.fieldEnd.write q ()).1 .fieldBegin S := by
  refine Copies.step (by decide) fun o p rest => ?_
  obtain ⟨v, p', hread, rfl, hwrite⟩ := hP.fieldEnd.1 p q rest
  refine ⟨(P.fieldEnd.write p' ()).2, ?_⟩
  simp only [handleState, fieldEnd, hread, Read.handle, emit, hwrite]

theorem copies_containerEnd {w : Wire π Unit} (hw : w.ReadsBack Eq ()) {s self : ProtocolState} {f g : Frame}
    (hself : ∀ o p rest, (machine self (f :: g :: S) o).handleState P ⟨p, md, rest⟩ =
      .next s (machine self (g :: S) o) ⟨p, md, rest⟩)
    (hs : ∀ o p rest, (machine s (g :: S) o).handleState P ⟨p, md, rest⟩ =
      containerEnd (machine s (g :: S) o) ⟨p, md, rest⟩ w)
    (hne : self ≠ .done) (hne' : s ≠ .done) (q : π) :
    Copies P md self (f :: g :: S) (w.write q ()).1 g.returnState S := by
  intro o p rest
  obtain ⟨p', hcopy⟩ := copy_of_readsBack_eq hw q (machine s (g :: S) o) p md rest
  have hend : (machine s (g :: S) o).handleState P ⟨p, md, (w.write q ()).1 ++ rest⟩ =
      .next g.returnState (machine s S (o ++ (w.write q ()).1)) ⟨p', md, rest⟩ := by
    rw [hs, containerEnd, hcopy, popReturnState]
  exact ⟨p', (Reaches.step hne (hself o p _)).trans (Reaches.step hne' hend)⟩

theorem handles_primitive {α : Type} {w : Wire π α} {v : α} (hw : w.ReadsBack Eq v) (q : π)
    (ht : ∀ s ρ S o p rest, handleValue P (machine s S o) ⟨p, md, rest⟩ t ρ =
      primitive (machine s S o) ⟨p, md, rest⟩ w ρ) : Handles P md t (w.write q v).1 := by
  intro s ρ S o p rest
  obtain ⟨p', hcopy⟩ := copy_of_readsBack_eq hw q (machine s S o) p md rest
  refine ⟨ρ, [], o ++ (w.write q v).1, p', rest, ?_, fun S' => ⟨p', Reaches.refl P _ _⟩⟩
  rw [ht, primitive, hcopy]
  rfl

theorem handles_pushed {s₀ : ProtocolState}
    (ht : ∀ s ρ S o p rest, handleValue P (machine s S o) ⟨p, md, rest⟩ t ρ =
      .next s₀ (machine s ({ returnState := ρ } :: S) o) ⟨p, md, rest⟩)
    (h : ∀ ρ S, Copies P md s₀ ({ returnState := ρ } :: S) a ρ S) : Handles P md t a := by
  intro s ρ S o p rest
  exact ⟨s₀, [{ returnState := ρ }], o, p, a ++ rest, ht .., fun S' => h ρ S' o p rest⟩

theorem Handles.fieldValue {f : Frame} (h : Handles P md f.elemType a) :
    Copies P md .fieldValue (f :: S) a f.returnState (f :: S) := by
  intro o p rest
  obtain ⟨s', pushed, o', p', rest', hval, hgo⟩ := h .fieldValue f.returnState (f :: S) o p rest
  obtain ⟨p'', hp''⟩ := hgo (f :: S)
  have hstep : (machine .fieldValue (f :: S) o).handleState P ⟨p, md, a ++ rest⟩ = _ := hval
  exact ⟨p'', (Reaches.step (by decide) hstep).trans hp''⟩

theorem Handles.mapKey {f : Frame} (h : Handles P md f.elemType a) (hn : f.remaining ≠ 0) :
    Copies P md .mapKey (f :: S) a .mapValue (f :: S) := by
  intro o p rest
  obtain ⟨s', pushed, o', p', rest', hval, hgo⟩ := h .mapKey .mapValue (f :: S) o p rest
  obtain ⟨p'', hp''⟩ := hgo (f :: S)
  have hstep : (machine .mapKey (f :: S) o).handleState P ⟨p, md, a ++ rest⟩ = _ := (if_neg hn).trans hval
  exact ⟨p'', (Reaches.step (by decide) hstep).trans hp''⟩

theorem modify_append_cons {β : Type} (g : β → β) (x : β) (below : List β) :
    ∀ above : List β, (above ++ x :: below).modify above.length g = above ++ g x :: below
  | [] => rfl
  | _ :: above => congrArg (List.cons _) (modify_append_cons g x below above)

/-- A value of a container: the container's frame is counted down below whatever the value
pushed. -/
theorem Handles.element {self ρ : ProtocolState} {f : Frame} (h : Handles P md t a) (hne : self ≠ .done)
    (hself : ∀ o p rest, (machine self (f :: S) o).handleState P ⟨p, md, rest⟩ =
      DecoderStateMachine.element P (machine self (f :: S) o) ⟨p, md, rest⟩ t ρ) :
    Copies P md self (f :: S) a ρ (f.decrement :: S) := by
  intro o p rest
  obtain ⟨s', pushed, o', p', rest', hval, hgo⟩ := h self ρ (f :: S) o p rest
  obtain ⟨p'', hp''⟩ := hgo (f.decrement :: S)
  have hstep : (machine self (f :: S) o).handleState P ⟨p, md, a ++ rest⟩ =
      .next s' (machine self (pushed ++ f.decrement :: S) o') ⟨p', md, rest'⟩ := by
    rw [hself, DecoderStateMachine.element]
    simp only [hval, decrement]
    have hidx : (pushed ++ f :: S).length - 1 - ((f :: S).length - 1) = pushed.length := by
      simp only [List.length_append, List.length_cons]
      omega
    rw [hidx, modify_append_cons]
  exact ⟨p'', (Reaches.step hne hstep).trans hp''⟩

end Handlers

/-! ## The values of a message -/

section Values

open DecoderStateMachine

variable {P : Protocol π} {L : Limits} {md : MessageMetadata} {S : List Frame} {a : Bytes}

theorem ofNat_succ_sub_one (n : Nat) : UInt32.ofNat (n + 1) - 1 = UInt32.ofNat n := by
  rw [UInt32.ofNat_add]
  exact UInt32.add_sub_cancel _ _

theorem ofNat_succ_ne_zero {n : Nat} (h : n + 1 < 2 ^ 32) : UInt32.ofNat (n + 1) ≠ 0 := by
  intro h0
  have hval := congrArg UInt32.toNat h0
  rw [UInt32.toNat_ofNat_of_lt' h] at hval
  exact absurd hval (Nat.succ_ne_zero n)

/-- `self` is `ListValue` or `SetValue`. -/
def IsSequence (P : Protocol π) (self : ProtocolState) : Prop :=
  self ≠ .done ∧ ∀ S o env, (machine self S o).handleState P env = sequenceValue P (machine self S o) env self

theorem isSequence_list (P : Protocol π) : IsSequence P .listValue := ⟨by decide, fun _ _ _ => rfl⟩

theorem isSequence_set (P : Protocol π) : IsSequence P .setValue := ⟨by decide, fun _ _ _ => rfl⟩

/-- The frame of a list or a set with `n` values left. -/
abbrev sequenceFrame (s : ProtocolState) (t : ValueType) (n : Nat) : Frame :=
  { returnState := s, elemType := t.toFieldType, remaining := UInt32.ofNat n }

/-- The frame of a map with `n` entries left. -/
abbrev mapFrame (k v : ValueType) (n : Nat) : Frame :=
  { returnState := .mapEnd, elemType := k.toFieldType, valueType := v.toFieldType,
    remaining := UInt32.ofNat n }

theorem sequenceFrame_decrement (s : ProtocolState) (t : ValueType) (n : Nat) :
    (sequenceFrame s t (n + 1)).decrement = sequenceFrame s t n := by
  simp only [Frame.decrement, ofNat_succ_sub_one]

theorem mapFrame_decrement (k v : ValueType) (n : Nat) :
    (mapFrame k v (n + 1)).decrement = mapFrame k v n := by
  simp only [Frame.decrement, ofNat_succ_sub_one]

theorem copies_nil (s : ProtocolState) (S : List Frame) : Copies P md s S [] s S := by
  intro o p rest
  rw [List.append_nil]
  exact ⟨p, Reaches.refl P _ _⟩

theorem Handles.mapValue {k v : ValueType} {n : Nat} (h : Handles P md v.toFieldType a)
    (hn : n + 1 < 2 ^ 32) :
    Copies P md .mapValue (mapFrame k v (n + 1) :: S) a .mapKey (mapFrame k v n :: S) := by
  rw [← mapFrame_decrement k v n]
  apply h.element (by decide)
  intro o p rest
  exact if_neg (ofNat_succ_ne_zero hn)

theorem Handles.sequenceValue {self s : ProtocolState} (hself : IsSequence P self) {t : ValueType} {n : Nat}
    (h : Handles P md t.toFieldType a) (hn : n + 1 < 2 ^ 32) :
    Copies P md self (sequenceFrame s t (n + 1) :: S) a self (sequenceFrame s t n :: S) := by
  rw [← sequenceFrame_decrement s t n]
  apply h.element hself.1
  intro o p rest
  rw [hself.2]
  exact if_neg (ofNat_succ_ne_zero hn)

/-- A container's header, read and written in one handler that pushes the container's frame. -/
theorem copies_containerBegin {α : Type} {w : Wire π α} {v : α} (hw : w.ReadsBack Eq v)
    {s self : ProtocolState} {g : α → Frame} (hne : s ≠ .done)
    (hs : ∀ o env, (machine s S o).handleState P env = copy (machine s S o) env w fun v m env =>
      .next self (m.push (g v)) env)
    (q : π) : Copies P md s S (w.write q v).1 self (g v :: S) := by
  refine Copies.step hne fun o p rest => ?_
  obtain ⟨p', hcopy⟩ := copy_of_readsBack_eq hw q (machine s S o) p md rest
  exact ⟨p', (hs _ _).trans (hcopy _)⟩

mutual

/-- Every value is taken up and copied. The cases follow `handleValue`. -/
theorem Value.handles (hP : P.Faithful L) : ∀ {t : ValueType} (v : Value t), v.Within L → ∀ q : π,
    Handles P md t.toFieldType (v.write P q).1
  | _, .bool v, _, q => handles_primitive (hP.bool v) q fun _ _ _ _ _ _ => rfl
  | _, .byte v, _, q => handles_primitive (hP.byte v) q fun _ _ _ _ _ _ => rfl
  | _, .i16 v, _, q => handles_primitive (hP.int16 v) q fun _ _ _ _ _ _ => rfl
  | _, .i32 v, _, q => handles_primitive (hP.int32 v) q fun _ _ _ _ _ _ => rfl
  | _, .i64 v, _, q => handles_primitive (hP.int64 v) q fun _ _ _ _ _ _ => rfl
  | _, .double v, _, q => handles_primitive (hP.double v) q fun _ _ _ _ _ _ => rfl
  | _, .string v, hv, q => handles_primitive (hP.string v hv) q fun _ _ _ _ _ _ => rfl
  | _, .struct name fields, hv, q =>
    handles_pushed (fun _ _ _ _ _ _ => rfl) fun ρ S =>
      (copies_structBegin hP q name).trans (Fields.copies hP fields hv _ _ S)
  | _, .map k v entries, ⟨hn, hv⟩, q => by
    have hlen : entries.length < 2 ^ 32 := L.size_lt hn
    have hw := hP.mapBegin k v (UInt32.ofNat entries.length) (by rwa [UInt32.toNat_ofNat_of_lt' hlen])
    refine handles_pushed (fun _ _ _ _ _ _ => rfl) fun ρ S => ?_
    apply (copies_containerBegin hw (by decide) (fun _ _ => rfl) q).trans
    apply (Entries.copies hP entries hv hlen _ _).trans
    exact copies_containerEnd (s := .mapEnd) hP.mapEnd.1 (fun _ _ _ => rfl) (fun _ _ _ => rfl)
      (by decide) (by decide) _
  | _, .list t values, ⟨hn, hv⟩, q => by
    have hlen : values.length < 2 ^ 32 := L.size_lt hn
    have hw := hP.listBegin t (UInt32.ofNat values.length) (by rwa [UInt32.toNat_ofNat_of_lt' hlen])
    refine handles_pushed (fun _ _ _ _ _ _ => rfl) fun ρ S => ?_
    apply (copies_containerBegin hw (by decide) (fun _ _ => rfl) q).trans
    apply (Values.copies hP (isSequence_list P) values hv hlen _ _).trans
    exact copies_containerEnd (s := .listEnd) hP.listEnd.1 (fun _ _ _ => rfl) (fun _ _ _ => rfl)
      (by decide) (by decide) _
  | _, .set t values, ⟨hn, hv⟩, q => by
    have hlen : values.length < 2 ^ 32 := L.size_lt hn
    have hw := hP.setBegin t (UInt32.ofNat values.length) (by rwa [UInt32.toNat_ofNat_of_lt' hlen])
    refine handles_pushed (fun _ _ _ _ _ _ => rfl) fun ρ S => ?_
    apply (copies_containerBegin hw (by decide) (fun _ _ => rfl) q).trans
    apply (Values.copies hP (isSequence_set P) values hv hlen _ _).trans
    exact copies_containerEnd (s := .setEnd) hP.setEnd.1 (fun _ _ _ => rfl) (fun _ _ _ => rfl)
      (by decide) (by decide) _

theorem Fields.copies (hP : P.Faithful L) : ∀ (fields : Fields), fields.Within L →
    ∀ (q : π) (f : Frame) (S : List Frame),
    Copies P md .fieldBegin (f :: S) (fields.write P q).1 f.returnState S
  | .nil, _, q, f, _ => copies_stop hP q f
  | .cons name _ t value fields, ⟨hid, hv, hfs⟩, q, f, S =>
    (copies_fieldBegin hP q name t hid).trans <| (Handles.fieldValue (Value.handles hP value hv _)).trans <|
      (copies_fieldEnd hP _ _).trans <| Fields.copies hP fields hfs _ f S

theorem Entries.copies (hP : P.Faithful L) : ∀ {k v : ValueType} (entries : Entries k v), entries.Within L →
    entries.length < 2 ^ 32 → ∀ (q : π) (S : List Frame),
    Copies P md .mapKey (mapFrame k v entries.length :: S) (entries.write P q).1 .mapKey (mapFrame k v 0 :: S)
  | _, _, .nil _ _, _, _, _, _ => copies_nil _ _
  | _, _, .cons k v key value entries, ⟨hk, hv, hes⟩, hn, q, S => by
    have hkey := (Value.handles hP key hk q).mapKey (f := mapFrame k v (entries.length + 1)) (S := S)
      (ofNat_succ_ne_zero hn)
    have hvalue := (Value.handles hP value hv (key.write P q).2).mapValue (k := k) (S := S) hn
    exact hkey.trans (hvalue.trans (Entries.copies hP entries hes (Nat.lt_of_succ_lt hn) _ S))

theorem Values.copies (hP : P.Faithful L) {self s : ProtocolState} (hself : IsSequence P self) :
    ∀ {t : ValueType} (values : Values t), values.Within L → values.length < 2 ^ 32 →
      ∀ (q : π) (S : List Frame),
    Copies P md self (sequenceFrame s t values.length :: S) (values.write P q).1 self
      (sequenceFrame s t 0 :: S)
  | _, .nil _, _, _, _, _ => copies_nil _ _
  | _, .cons t value values, ⟨hv, hvs⟩, hn, q, S =>
    ((Value.handles hP value hv q).sequenceValue hself hn).trans
      (Values.copies hP hself values hvs (Nat.lt_of_succ_lt hn) _ S)

end

end Values

/-! ## A whole message -/

section Whole

open DecoderStateMachine

variable {P : Protocol π} {L : Limits}

/-- The header of a message: the machine enters the struct with one frame, for the message's end. -/
theorem reaches_messageBegin (hP : P.Faithful L) (h : MessageHeader)
    (hh : L.text h.methodName.length) (q p : π) (md : MessageMetadata) (rest : Bytes) : ∃ md' p',
      Reaches P {} ⟨p, md, (P.writeMessageBegin q h.metadata).1 ++ rest⟩
        (machine .structBegin [{ returnState := .messageEnd }] (P.writeMessageBegin q h.metadata).1)
          ⟨p', md', rest⟩ := by
  obtain ⟨md', p', hread, hwrite⟩ := hP.messageBegin h hh md p q rest
  refine ⟨md', (P.writeMessageBegin p' md').2, Reaches.step (s := .messageBegin) (by decide) ?_⟩
  simp only [handleState, messageBegin, hread, Read.handle, emit, hwrite, List.nil_append]
  rfl

theorem copies_messageEnd (hP : P.Faithful L) (md : MessageMetadata) (q : π) :
    Copies P md .messageEnd [] (P.messageEnd.write q ()).1 .done [] := by
  refine Copies.step (by decide) fun o p rest => ?_
  obtain ⟨p', hcopy⟩ := copy_of_readsBack_eq hP.messageEnd q (machine .messageEnd [] o) p md rest
  exact ⟨p', hcopy _⟩

/-- On the encoding of a message, whatever follows it, a run of the machine is done at its end: the
rest is left in the buffer, the stack is empty, and the message written is the encoding. -/
theorem run_message (hP : P.Faithful L) (msg : Message) (hmsg : msg.Within L) (p q : π) (md : MessageMetadata)
    (rest : Bytes) : ∃ n p' md', ∀ fuel, n ≤ fuel →
      DecoderStateMachine.run P fuel {} ⟨p, md, msg.encoding P q ++ rest⟩ =
        some (.done { state := .done, stack := [], originMessage := msg.encoding P q } ⟨p', md', rest⟩) := by
  obtain ⟨hname, hfields⟩ := hmsg
  obtain ⟨q₁, hq₁⟩ : ∃ q₁, q₁ = (P.writeMessageBegin q msg.header.metadata).2 := ⟨_, rfl⟩
  obtain ⟨body, hbody⟩ : ∃ body, body = (andThen (P.structBegin.write · msg.name)
      (andThen (msg.fields.write P) (P.messageEnd.write · ())) q₁).1 := ⟨_, rfl⟩
  have henc : msg.encoding P q = (P.writeMessageBegin q msg.header.metadata).1 ++ body := by
    rw [hbody, hq₁]
    rfl
  obtain ⟨md', p₁, hbegin⟩ := reaches_messageBegin hP msg.header hname q p md (body ++ rest)
  -- the struct of the message returns to the message's end with nothing left on the stack
  have hcopies : Copies P md' .structBegin [{ returnState := .messageEnd }] body .done [] := by
    rw [hbody]
    apply (copies_structBegin hP _ _).trans
    apply (Fields.copies hP msg.fields hfields _ _ _).trans
    exact copies_messageEnd hP md' _
  obtain ⟨p', hrest⟩ := hcopies (P.writeMessageBegin q msg.header.metadata).1 p₁ rest
  obtain ⟨n, hn⟩ := hbegin.trans hrest
  refine ⟨n, p', md', fun fuel hfuel => ?_⟩
  obtain ⟨k, rfl⟩ := Nat.exists_eq_add_of_le hfuel
  rw [henc, List.append_assoc, hn k, DecoderStateMachine.run_done P rfl]

/-- A call with a map whose key is a list, an empty list of structs, and a struct in a struct. -/
def nestedCall : Message where
  header := ⟨[0x66], .call, 7⟩
  fields :=
    .cons [] 1 .map (.map .list .string (.cons _ _ (.list .i32 (.cons _ (.i32 1) (.cons _ (.i32 2) (.nil _))))
      (.string [0x78]) (.nil _ _))) <|
    .cons [] 2 .list (.list .struct (.nil _)) <|
    .cons [] 3 .struct (.struct [] (.cons [] 1 .bool (.bool true) .nil)) <|
    .nil

theorem nestedCall_within : nestedCall.Within binaryLimits := by
  simp only [nestedCall, Message.Within, Fields.Within, Value.Within, Entries.Within, Values.Within,
    Entries.length, Values.length, binaryLimits]
  decide

/-- A nested call in the binary protocol, with three bytes behind it. -/
theorem run_nestedCall : ∃ n p' md', ∀ fuel, n ≤ fuel →
    DecoderStateMachine.run binary fuel {} ⟨(), {}, nestedCall.encoding binary () ++ [1, 2, 3]⟩ =
      some (.done { state := .done, stack := [], originMessage := nestedCall.encoding binary () }
        ⟨p', md', [1, 2, 3]⟩) :=
  run_message faithful_binary nestedCall nestedCall_within () () {} [1, 2, 3]

end Whole

end MetaProtocolProxy.Thrift
