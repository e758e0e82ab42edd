import MetaProtocolProxy.Dubbo.Attachments
/-
# Mutating a Dubbo request
(dubbo_codec.cc:303-326, dubbo_protocol_impl.cc:260-295, message_impl.cc:28-44)

`encodeRequest` sets every entry of the mutation in the request's attachment and lets
`headerMutation` splice a new frame: the header up to the length field, a new length, the body up to
the attachment, and the attachment serialized anew. Where the attachment starts is the offset of the
decoder that read it on first use, counted from the start of the message.

* `mutate_attachment` — the attachment afterwards: the entries under other names, then the
  mutation's.
* `mutation_round_trip_iff` — the frame is the one it should be exactly for a two-way call without
  an attachment that clashes with the codec's own names, and a new body whose size is a `uint32_t`.
* `calls_not_mutated` — a call with the attachment `Timeout`, and a one-way call.

What is assumed of Hessian2 (`Hessian2.Forward`, `Inverse`): a read leaves the decoder further on,
within its buffer, and the serialized map is read back behind whatever precedes it. A map has no
order: its entries may come back in another one.
-/
namespace MetaProtocolProxy.Dubbo

open Bytes
open Metadata (ofType)

/-! ## The attachment -/

def touched (m : Mutation) (e : Object × Object) : Bool := m.any fun kv => e.1.toString == some kv.1

/-- Every name of the mutation is set, once, and the entries under other names are as before, in
some order. -/
structure MapUpdated (old : List (Object × Object)) (m : Mutation) (new : List (Object × Object)) : Prop where
  set : ∀ kv ∈ m, new.filter (fun e => e.1.toString == some kv.1) = [(.string kv.1, .string kv.2)]
  others : (new.filter fun e => !touched m e).Perm (old.filter fun e => !touched m e)

section Mutate

variable {m : Mutation} {a : Attachment}

theorem mutate_cons (kv : String × String) (m : Mutation) (a : Attachment) :
    mutate (kv :: m) a = mutate m ((a.remove kv.1).insert kv.1 kv.2) := rfl

@[simp] theorem mutate_attachmentOffset (m : Mutation) (a : Attachment) :
    (mutate m a).attachmentOffset = a.attachmentOffset := by
  induction m generalizing a with
  | nil => rfl
  | cons kv m ih => rw [mutate_cons, ih]; rfl

theorem mutate_attachmentUpdated (hm : m ≠ []) (a : Attachment) : (mutate m a).attachmentUpdated = true := by
  cases m with
  | nil => exact absurd rfl hm
  | cons kv m =>
    rw [mutate_cons]
    have hkept : ∀ (m : Mutation) (a : Attachment), a.attachmentUpdated = true →
        (mutate m a).attachmentUpdated = true := by
      intro m
      induction m with
      | nil => exact fun a h => h
      | cons kv m ih => exact fun a _ => ih _ rfl
    exact hkept m _ rfl

theorem touched_string (m : Mutation) (key value : String) :
    touched m (.string key, .string value) = true ↔ key ∈ m.map Prod.fst := by
  simp only [touched, Object.toString, List.any_eq_true, List.mem_map, beq_iff_eq, Option.some.injEq]
  exact exists_congr fun kv => and_congr_right fun _ => eq_comm

theorem filter_name (hm : (m.map Prod.fst).Nodup) {kv : String × String} (hkv : kv ∈ m) :
    m.filter (fun e => e.1 == kv.1) = [kv] := by
  induction m with
  | nil => cases hkv
  | cons e m ih =>
    rw [List.map_cons, List.nodup_cons] at hm
    rcases List.mem_cons.1 hkv with rfl | hmem
    · have hrest : m.filter (fun e => e.1 == kv.1) = [] := by
        rw [List.filter_eq_nil_iff]
        intro e he hkey
        exact hm.1 (beq_iff_eq.1 hkey ▸ List.mem_map_of_mem he)
      rw [List.filter_cons, if_pos (beq_self_eq_true kv.1), hrest]
    · have hne : ¬ (e.1 == kv.1) = true := fun hkey => hm.1 (beq_iff_eq.1 hkey ▸ List.mem_map_of_mem hmem)
      rw [List.filter_cons, if_neg hne, ih hm.2 hmem]

/-- **What the loop leaves**: removing before inserting moves the entries to the end. -/
theorem mutate_attachment (hm : (m.map Prod.fst).Nodup) (a : Attachment) :
    (mutate m a).attachment =
      a.attachment.filter (fun e => !touched m e) ++ m.map fun kv => (.string kv.1, .string kv.2) := by
  induction m generalizing a with
  | nil => simp [mutate, touched]
  | cons kv m ih =>
    obtain ⟨key, value⟩ := kv
    rw [List.map_cons, List.nodup_cons] at hm
    -- the entry just inserted is not removed again
    have hlast : (!touched m (.string key, .string value)) = true := by
      rw [Bool.not_eq_true', ← Bool.not_eq_true, touched_string]
      exact hm.1
    rw [mutate_cons, ih hm.2]
    simp only [Attachment.insert, Attachment.remove, List.filter_append, List.filter_filter, List.map_cons]
    rw [List.filter_singleton, hlast, cond_true, List.append_assoc, List.singleton_append]
    congr 1
    refine List.filter_congr fun e _ => ?_
    simp [touched, bne, Bool.and_comm]

theorem filter_mutate (hm : (m.map Prod.fst).Nodup) (a : Attachment) :
    ((mutate m a).attachment.filter fun e => !touched m e) = a.attachment.filter fun e => !touched m e := by
  have hnone : (m.map fun kv => ((.string kv.1, .string kv.2) : Object × Object)).filter
      (fun e => !touched m e) = [] := by
    rw [List.filter_eq_nil_iff]
    intro e he
    obtain ⟨kv, hkv, rfl⟩ := List.mem_map.1 he
    simpa using (touched_string m kv.1 kv.2).2 (List.mem_map_of_mem hkv)
  rw [mutate_attachment hm, List.filter_append, hnone, List.append_nil, List.filter_filter]
  simp

theorem mapUpdated_mutate (hm : (m.map Prod.fst).Nodup) {a : Attachment} {new : List (Object × Object)}
    (hnew : new.Perm (mutate m a).attachment) : MapUpdated a.attachment m new where
  set kv hkv := by
    have hold : (a.attachment.filter fun e => !touched m e).filter
        (fun e => e.1.toString == some kv.1) = [] := by
      rw [List.filter_filter, List.filter_eq_nil_iff]
      intro e _
      simp only [Bool.and_eq_true, beq_iff_eq, Bool.not_eq_true', not_and, Bool.not_eq_false]
      intro hkey
      exact List.any_eq_true.2 ⟨kv, hkv, by rw [hkey, beq_self_eq_true]⟩
    have hset : (mutate m a).attachment.filter (fun e => e.1.toString == some kv.1) =
        [(.string kv.1, .string kv.2)] := by
      rw [mutate_attachment hm, List.filter_append, hold, List.nil_append, List.filter_map]
      simpa [Function.comp_def, Object.toString] using filter_name hm hkv
    exact List.perm_singleton.1 (hset ▸ hnew.filter _)
  others := filter_mutate hm a ▸ hnew.filter _

end Mutate

/-! ## Where the attachment starts -/

/-- The decoder is on the same buffer, not before where it was, and still within the buffer. -/
structure Ahead (d d' : Decoder) : Prop where
  buffer : d'.buffer = d.buffer
  le : d.offset ≤ d'.offset
  bound : d.offset ≤ d.buffer.length → d'.offset ≤ d.buffer.length

theorem Ahead.refl (d : Decoder) : Ahead d d := ⟨rfl, Nat.le_refl _, id⟩

theorem Ahead.trans {d d' d'' : Decoder} (h : Ahead d d') (h' : Ahead d' d'') : Ahead d d'' where
  buffer := h'.buffer.trans h.buffer
  le := h.le.trans h'.le
  bound hd := by
    have := h'.bound (by rw [h.buffer]; exact h.bound hd)
    rwa [h.buffer] at this

/-- A read moves the decoder forward, whether it finds a value or null. -/
structure Hessian2.Forward (hs : Hessian2) : Prop where
  string : ∀ d, Ahead d (hs.decodeString d).2
  object : ∀ d, Ahead d (hs.decodeObject d).2

section Reads

variable {hs : Hessian2}

theorem decodeParameters_ahead (hf : hs.Forward) {n : Nat} {d d' : Decoder} {params : List Object}
    (h : decodeParameters hs n d = .ok (params, d')) : Ahead d d' := by
  induction n generalizing d params with
  | zero =>
    cases h
    exact .refl _
  | succ n ih =>
    have hread := hf.object d
    unfold decodeParameters at h
    split at h
    next result d₁ hd =>
      rw [hd] at hread
      obtain ⟨⟨rest, d₂⟩, hrest, hpair⟩ := bind_eq_ok.1 h
      cases hpair
      exact hread.trans (ih hrest)
    · cases h

theorem parametersCallback_ahead (hf : hs.Forward) {d d' : Decoder} {params : List Object}
    (h : parametersCallback hs d = .ok (params, d')) : Ahead d d' := by
  have hread := hf.string d
  unfold parametersCallback at h
  split at h
  next types d₁ hd =>
    rw [hd] at hread
    exact hread.trans (decodeParameters_ahead hf h)
  next d₁ hd =>
    rw [hd] at hread
    cases h
    exact hread

/-- The attachment a message was found to have: it starts in the body, and it is what a decoder
reads there. -/
structure Found (hs : Hessian2) (f : Bytes) (start : Nat) (a : Attachment) : Prop where
  lower : start ≤ a.attachmentOffset
  upper : a.attachmentOffset ≤ f.length
  read : (decodeAttachment hs ⟨f, a.attachmentOffset⟩ a.attachmentOffset).1 = a
  fresh : a.attachmentUpdated = false

theorem decodeAttachment_fields (hs : Hessian2) (d : Decoder) (o : Nat) :
    (decodeAttachment hs d o).1.attachmentOffset = o ∧
      (decodeAttachment hs d o).1.attachmentUpdated = false := by
  unfold decodeAttachment
  split <;> exact ⟨rfl, rfl⟩

theorem assignAttachment_found (hf : hs.Forward) {f : Bytes} {invo invo' : RpcInvocation}
    (hnone : invo.attachment = none)
    (hstart : invo.delayedFrom ≤ f.length) (h : invo.assignAttachmentIfNeed hs f = .ok invo') :
    ∃ a, invo'.attachment = some a ∧ Found hs f invo.delayedFrom a := by
  simp only [RpcInvocation.assignAttachmentIfNeed, hnone] at h
  obtain ⟨⟨params, d⟩, hparams, h⟩ := bind_eq_ok.1 h
  cases h
  have hahead := parametersCallback_ahead hf hparams
  obtain ⟨hoffset, hfresh⟩ := decodeAttachment_fields hs d d.offset
  have hd : d = ⟨f, d.offset⟩ := congrArg (Decoder.mk · d.offset) hahead.buffer
  refine ⟨_, rfl, ⟨?_, ?_, ?_, hfresh⟩⟩
  · rw [hoffset]
    exact hahead.le
  · rw [hoffset]
    exact hahead.bound hstart
  · rw [hoffset, ← hd]

theorem deserializeRpcInvocation_delayed {body : Bytes} {ctx : Context} {invo : RpcInvocation}
    (h : deserializeRpcInvocation hs body ctx = .ok invo) :
    invo.attachment = none ∧ ctx.headerSize ≤ invo.delayedFrom ∧
      invo.delayedFrom ≤ ctx.headerSize + ctx.bodySize := by
  unfold deserializeRpcInvocation at h
  dsimp only at h
  split at h
  · cases h
  next hsize =>
    split at h
    · cases h
      exact ⟨rfl, Nat.le_add_right _ _, Nat.add_le_add_left (Nat.not_lt.1 hsize) _⟩
    · cases h

end Reads

/-! ## Accepted calls -/

section Accepted

variable {hs : Hessian2} {f rest : Bytes} {c : DubboCodec} {md : Metadata DubboAny} {t : MessageType}

def requestTypeOf (flag : UInt8) : DubboMessageType :=
  if hasMask flag eventMask then .heartbeatRequest else if hasMask flag twoWayMask then .request else .oneway

theorem requestTypeOf_beat (flag : UInt8) :
    (requestTypeOf flag = .heartbeatRequest ∨ requestTypeOf flag = .heartbeatResponse) ↔
      hasMask flag eventMask = true := by
  unfold requestTypeOf
  cases hasMask flag eventMask <;> cases hasMask flag twoWayMask <;> simp

theorem requestTypeOf_request (flag : UInt8) :
    requestTypeOf flag = .request ↔ hasMask flag eventMask = false ∧ hasMask flag twoWayMask = true := by
  unfold requestTypeOf
  cases hasMask flag eventMask <;> cases hasMask flag twoWayMask <;> simp

theorem decodeHeader_sizes {msg : MessageMetadata} {ctx : Context}
    (h : decodeHeader f {} = (msg, .ok (some ctx))) :
    messageSize ≤ f.length ∧ ctx.headerSize = messageSize ∧ ctx.bodySize = peekBE 4 bodySizeOffset f ∧
      ctx.bodySize ≤ maxBodySize ∧ ctx.originMessage = [] := by
  obtain ⟨hlen, hsize, -, rfl⟩ := decodeHeader_accepted h
  exact ⟨hlen, rfl, rfl, hsize, rfl⟩

theorem decodeHeader_request {msg : MessageMetadata} {ctx : Context}
    (h : decodeHeader f {} = (msg, .ok (some ctx)))
    (hreq : hasMask (peekByte flagOffset f) messageTypeMask = true) :
    msg.messageType = requestTypeOf (peekByte flagOffset f) := by
  have hparsed := (decodeHeader_accepted h).parsed
  simp only [parsedInfo, hreq, if_true, parseRequestInfoFromBuffer] at hparsed
  split at hparsed
  · cases hparsed
  · cases hparsed
    unfold requestTypeOf
    cases hasMask (peekByte flagOffset f) eventMask <;>
      cases hasMask (peekByte flagOffset f) twoWayMask <;> rfl

theorem decodeData_length {buffer : Bytes} {ctx : Context} {msg msg' : MessageMetadata}
    (h : decodeData hs buffer ctx msg = .ok (some msg')) : ctx.bodySize ≤ buffer.length := by
  unfold decodeData at h
  split at h
  · cases h
  next hlen => exact Nat.not_lt.1 hlen

theorem run_length {m : DecoderStateMachine} (h : DecoderStateMachine.run hs {} f = .done m () []) :
    f.length = messageSize + peekBE 4 bodySizeOffset f ∧ peekBE 4 bodySizeOffset f ≤ maxBodySize := by
  cases run_ran h with
  | heartbeat hheader _ hlen hrest =>
    obtain ⟨-, hhs, hbs, hmax, -⟩ := decodeHeader_sizes hheader
    have := List.drop_eq_nil_iff.1 hrest.symm
    rw [hhs, hbs] at this hlen
    exact ⟨by omega, hbs ▸ hmax⟩
  | body hheader _ hdata hrest =>
    obtain ⟨hlen, hhs, hbs, hmax, -⟩ := decodeHeader_sizes hheader
    have hthere := decodeData_length hdata
    rw [hhs, List.length_drop] at hthere
    have := List.drop_eq_nil_iff.1 hrest.symm
    rw [hhs, hbs, List.length_drop] at this
    have hbody : peekBE 4 bodySizeOffset f ≤ f.length - messageSize := hbs ▸ hthere
    exact ⟨by omega, hbs ▸ hmax⟩

theorem decodeData_request {buffer : Bytes} {ctx : Context} {msg msg' : MessageMetadata}
    (htype : msg.messageType = .request ∨ msg.messageType = .oneway)
    (h : decodeData hs buffer ctx msg = .ok (some msg')) :
    ∃ invo, deserializeRpcInvocation hs buffer ctx = .ok invo ∧
      msg' = { msg with invocationInfo := some invo } := by
  unfold decodeData at h
  split at h
  · cases h
  rcases htype with ht | ht <;> simp only [ht] at h <;> obtain ⟨invo, hinvo, hmsg⟩ :=
    bind_eq_ok.1 h <;> cases hmsg
  · exact ⟨invo, hinvo, by rw [← ht]⟩
  · exact ⟨invo, hinvo, by rw [← ht]⟩

structure ReadRequest (f : Bytes) (msg : MessageMetadata) (ctx : Context) : Prop where
  messageType : msg.messageType = requestTypeOf (peekByte flagOffset f)
  rpcResultInfo : msg.rpcResultInfo = none
  timeout : msg.timeout = none
  headerSize : ctx.headerSize = messageSize
  size : f.length = messageSize + peekBE 4 bodySizeOffset f
  originMessage : ctx.originMessage = f
  call : hasMask (peekByte flagOffset f) eventMask = false → ∃ invo, msg.invocationInfo = some invo ∧
    invo.attachment = none ∧ messageSize ≤ invo.delayedFrom ∧ invo.delayedFrom ≤ f.length
  event : hasMask (peekByte flagOffset f) eventMask = true → msg.invocationInfo = none

theorem run_readRequest {m : DecoderStateMachine} (h : DecoderStateMachine.run hs {} f = .done m () [])
    (hreq : hasMask (peekByte flagOffset f) messageTypeMask = true) : ReadRequest f m.metadata m.context := by
  have hsize := (run_length h).1
  cases run_ran h with
  | @heartbeat msg ctx hheader hbeat hlen hrest =>
    have hread := decodeHeader_readHeader hheader
    have htype := decodeHeader_request hheader hreq
    obtain ⟨-, hhs, hbs, -, horigin⟩ := decodeHeader_sizes hheader
    refine ⟨htype, hread.rpcResultInfo, hread.timeout, hhs, hsize, ?_, fun hev => ?_, fun _ =>
      hread.invocationInfo⟩
    · simp only [Context.moveIn, horigin, List.nil_append, hhs, hbs, ← hsize, List.take_length]
    · rw [htype, requestTypeOf_beat, hev] at hbeat
      cases hbeat
  | @body msg msg' ctx hheader hbeat hdata hrest =>
    have hread := decodeHeader_readHeader hheader
    have htype := decodeHeader_request hheader hreq
    obtain ⟨-, hhs, hbs, -, horigin⟩ := decodeHeader_sizes hheader
    rw [htype, requestTypeOf_beat] at hbeat
    have hcall : msg.messageType = .request ∨ msg.messageType = .oneway := by
      rw [htype, requestTypeOf, if_neg hbeat]
      cases hasMask (peekByte flagOffset f) twoWayMask <;> simp
    obtain ⟨invo, hinvo, rfl⟩ := decodeData_request hcall hdata
    obtain ⟨hnone, hlo, hhi⟩ := deserializeRpcInvocation_delayed hinvo
    simp only [Context.moveIn, hhs, hbs] at hlo hhi
    refine ⟨htype, hread.rpcResultInfo, hread.timeout, hhs, hsize, ?_, fun _ =>
      ⟨invo, rfl, hnone, hlo, hsize ▸ hhi⟩, fun hev => absurd hev hbeat⟩
    · have htake : (f.drop messageSize).take (peekBE 4 bodySizeOffset f) = f.drop messageSize :=
        List.take_of_length_le (by rw [List.length_drop]; omega)
      simp only [Context.moveIn, horigin, List.nil_append, hhs, hbs, htake, List.take_append_drop]

theorem ReadRequest.lookup_messageType {msg : MessageMetadata} {ctx : Context} (hr : ReadRequest f msg ctx)
    (h : toMetadata hs msg ctx (ofType t) = .ok md) :
    md.getByKey "MessageType" = some (.other (.messageType (requestTypeOf (peekByte flagOffset f)))) := by
  cases hi : msg.invocationInfo with
  | some invo =>
    obtain ⟨invo', -, hp⟩ := toMetadata_invocation hi hr.rpcResultInfo h
    have hw : Written (putInvocation (ofType t) invo') { msg with invocationInfo := some invo' } _ :=
      putMessage_written hr.timeout
    rw [getByKey_of_properties hp, hw.messageType, hr.messageType]
  | none =>
    have hw : Written (ofType t) msg _ := putMessage_written hr.timeout
    rw [getByKey_of_properties (toMetadata_bodiless hi hr.rpcResultInfo h), hw.messageType, hr.messageType]

/-- The attachment of a message's invocation. -/
def attachmentOf (md : Metadata DubboAny) : Option Attachment :=
  match md.getByKey "InvocationInfo" with
  | some (.other (.invocationInfo (some invo))) => invo.attachment
  | _ => none

theorem ReadRequest.attachment (hf : hs.Forward) {msg : MessageMetadata} {ctx : Context}
    (hr : ReadRequest f msg ctx) (hev : hasMask (peekByte flagOffset f) eventMask = false)
    (h : toMetadata hs msg ctx (ofType t) = .ok md) :
    ∃ invo a, md.getByKey "InvocationInfo" = some (.other (.invocationInfo (some invo))) ∧
      invo.attachment = some a ∧ Found hs f messageSize a := by
  obtain ⟨invo, hi, hnone, hlo, hhi⟩ := hr.call hev
  obtain ⟨invo', hassign, hp⟩ := toMetadata_invocation hi hr.rpcResultInfo h
  rw [hr.originMessage] at hassign
  obtain ⟨a, ha, hfound⟩ := assignAttachment_found hf hnone hhi hassign
  have hw : Written (putInvocation (ofType t) invo') { msg with invocationInfo := some invo' } _ :=
    putMessage_written hr.timeout
  refine ⟨invo', a, ?_, ha, ⟨hlo.trans hfound.lower, hfound.upper, hfound.read, hfound.fresh⟩⟩
  rw [getByKey_of_properties hp, hw.invocationInfo]

end Accepted

/-! ## The new frame -/

section Splice

variable {encodeMap : List (Object × Object) → Bytes} {f : Bytes} {a : Attachment}

theorem reserialize_eq (hlo : messageSize ≤ a.attachmentOffset) (hhi : a.attachmentOffset < 2 ^ 64) :
    reserialize encodeMap f a messageSize =
      f.take bodySizeOffset ++
        writeBE 4 (sub64 (a.attachmentOffset + (encodeMap a.attachment).length) messageSize) ++
        (f.drop messageSize).take (a.attachmentOffset - messageSize) ++ encodeMap a.attachment := by
  have hsub : sub64 a.attachmentOffset messageSize = a.attachmentOffset - messageSize := by
    unfold sub64
    simp only [messageSize] at hlo ⊢
    omega
  have hhead : sub64 messageSize 4 = bodySizeOffset := by decide
  simp only [reserialize, hsub, hhead, List.drop_drop]
  rfl

structure Spliced (f : Bytes) (offset : Nat) (attachment g : Bytes) : Prop where
  header : g.take bodySizeOffset = f.take bodySizeOffset
  length : peekBE 4 bodySizeOffset g = (g.length - messageSize) % 2 ^ 32
  size : g.length = offset + attachment.length
  body : (g.take offset).drop messageSize = (f.take offset).drop messageSize
  split : ∃ before, before.length = offset ∧ g = before ++ attachment

theorem reserialize_spliced (hlo : messageSize ≤ a.attachmentOffset) (hhi : a.attachmentOffset ≤ f.length)
    (hlt : a.attachmentOffset < 2 ^ 64) :
    Spliced f a.attachmentOffset (encodeMap a.attachment) (reserialize encodeMap f a messageSize) := by
  rw [reserialize_eq hlo hlt]
  generalize encodeMap a.attachment = s
  generalize a.attachmentOffset = o at hlo hhi hlt ⊢
  generalize hsize : sub64 (o + s.length) messageSize = size
  have hhead : (f.take bodySizeOffset).length = bodySizeOffset := by
    simp only [messageSize] at hlo
    simp only [List.length_take, bodySizeOffset]
    omega
  have hbody : ((f.drop messageSize).take (o - messageSize)).length = o - messageSize := by
    simp only [List.length_take, List.length_drop]
    omega
  have hbefore :
      (f.take bodySizeOffset ++ writeBE 4 size ++ (f.drop messageSize).take
          (o - messageSize)).length = o := by
    simp only [List.length_append, hhead, hbody, length_writeBE]
    simp only [bodySizeOffset, messageSize] at hlo ⊢
    omega
  refine ⟨?_, ?_, ?_, ?_, _, hbefore, rfl⟩
  · rw [List.append_assoc, List.append_assoc, List.take_left' hhead]
  · have hfield : peekBE 4 bodySizeOffset
        (f.take bodySizeOffset ++ writeBE 4 size ++ (f.drop messageSize).take (o - messageSize) ++
            s) = size % 256 ^ 4 := by
      rw [peekBE, List.append_assoc, List.append_assoc, List.drop_left' hhead,
        List.take_left' (length_writeBE 4 size), ofBE_writeBE]
    rw [hfield, List.length_append, hbefore, ← hsize]
    simp only [sub64, messageSize] at hlo ⊢
    omega
  · rw [List.length_append, hbefore]
  · rw [List.take_left' hbefore, List.drop_left', List.drop_take]
    rw [List.length_append, hhead, length_writeBE]
    rfl

end Splice

section RoundTrip

variable {hs : Hessian2} {encodeMap : List (Object × Object) → Bytes} {f : Bytes} {c : DubboCodec}
  {md : Metadata DubboAny} {t : MessageType} {m : Mutation}

/-- `g` is the call `f` with the mutation `m` in its attachment `a`. -/
structure Mutated (hs : Hessian2) (f : Bytes) (a : Attachment) (m : Mutation) (g : Bytes) : Prop where
  header : g.take bodySizeOffset = f.take bodySizeOffset
  length : messageSize + peekBE 4 bodySizeOffset g = g.length
  body : (g.take a.attachmentOffset).drop messageSize = (f.take a.attachmentOffset).drop messageSize
  attachment : MapUpdated a.attachment m
    (decodeAttachment hs ⟨g, a.attachmentOffset⟩ a.attachmentOffset).1.attachment
  unchanged : m = [] → g = f

/-- `encodeRequest` on the message of `f` and its bytes leaves the frame it should. -/
def RoundTrips (hs : Hessian2) (encodeMap : List (Object × Object) → Bytes) (f : Bytes)
    (md : Metadata DubboAny) (m : Mutation) : Prop :=
  ∃ md' g a, encodeRequest encodeMap md m f = .ok (md', g) ∧ attachmentOf md = some a ∧ Mutated hs f a m g

/-- The map is read back from its serialized form, behind whatever precedes it, in some order of its
entries. -/
def Inverse (hs : Hessian2) (encodeMap : List (Object × Object) → Bytes)
    (entries : List (Object × Object)) : Prop :=
  ∀ before : Bytes, ∃ entries' : List (Object × Object), entries'.Perm entries ∧
    (hs.decodeObject ⟨before ++ encodeMap entries, before.length⟩).1 = some (.untypedMap entries')

/-- A two-way call whose attachments keep clear of the codec's names, with a new body that has a
size. -/
structure Rewritable (hs : Hessian2) (encodeMap : List (Object × Object) → Bytes) (f : Bytes)
    (md : Metadata DubboAny) (m : Mutation) : Prop where
  notEvent : hasMask (peekByte flagOffset f) eventMask = false
  twoWay : hasMask (peekByte flagOffset f) twoWayMask = true
  noClash : NoClash hs f
  size : m ≠ [] → ∀ a, attachmentOf md = some a →
    a.attachmentOffset - messageSize + (encodeMap (mutate m a).attachment).length < 2 ^ 32

theorem toMsgMetadata_invocation {msg : MessageMetadata} {invo : Option RpcInvocation}
    (h : toMsgMetadata md = .ok msg)
    (hl : md.getByKey "InvocationInfo" = some (.other (.invocationInfo invo))) :
    msg.invocationInfo = invo := by
  obtain ⟨x, hx, hmsg⟩ := (toMsgMetadata_iff.1 h).invocationInfo
  simp only [optional, hl, Cast.invocationInfo, Except.ok.injEq] at hx
  rw [hmsg, ← hx]
  rfl

theorem toMsgMetadata_messageType {msg : MessageMetadata} {type : DubboMessageType}
    (h : toMsgMetadata md = .ok msg)
    (hl : md.getByKey "MessageType" = some (.other (.messageType type))) : msg.messageType = type := by
  have hcast := (toMsgMetadata_iff.1 h).messageType
  simp only [required, hl, Cast.messageType, Except.ok.injEq] at hcast
  exact hcast.symm

/-- Only the attachment decides what `headerMutation` does, and only a mutation updates it. -/
theorem encodeRequest_eq {msg : MessageMetadata} {invo : RpcInvocation} {a : Attachment}
    (hmsg : toMsgMetadata md = .ok msg)
    (htype : msg.messageType = .request) (hi : msg.invocationInfo = some invo) (ha : invo.attachment = some a)
    (hfresh : a.attachmentUpdated = false) (hsize : md.headerSize = messageSize) (m : Mutation) (f : Bytes) :
    ∃ md', encodeRequest encodeMap md m f =
      .ok (md', if m = [] then f else reserialize encodeMap f (mutate m a) messageSize) := by
  have hwritten (msg' : MessageMetadata) (hm : msg'.invocationInfo.bind RpcInvocation.attachment =
      some (mutate m a)) : headerMutation encodeMap f msg' (contextOf md) =
        if m = [] then f else reserialize encodeMap f (mutate m a) messageSize := by
    simp only [headerMutation, hm, contextOf, hsize]
    by_cases hm : m = []
    · subst hm
      rw [if_pos rfl, if_neg (by simp [mutate, hfresh])]
    · rw [if_neg hm, if_pos (mutate_attachmentUpdated hm a)]
  simp only [encodeRequest, hmsg, hi, ha, Option.map_some, protocolEncode, htype, bind, Except.bind]
  rw [hwritten _ rfl]
  exact ⟨_, rfl⟩

/-- What `encodeRequest` returns from is a message with a case in `DubboProtocolImpl::encode`. -/
theorem encodeRequest_type {r : Metadata DubboAny × Bytes} (h : encodeRequest encodeMap md m f = .ok r)
    (hl : md.getByKey "MessageType" = some (.other (.messageType (requestTypeOf (peekByte flagOffset f))))) :
    (∃ msg, toMsgMetadata md = .ok msg) ∧ requestTypeOf (peekByte flagOffset f) = .request := by
  obtain ⟨msg, hmsg, h⟩ := bind_eq_ok.1 h
  obtain ⟨buffer, henc, -⟩ := bind_eq_ok.1 h
  refine ⟨⟨msg, hmsg⟩, ?_⟩
  have htype := toMsgMetadata_messageType hmsg hl
  cases hev : hasMask (peekByte flagOffset f) eventMask <;> cases htw :
    hasMask (peekByte flagOffset f) twoWayMask <;>
    simp only [requestTypeOf, hev, htw, protocolEncode, htype, reduceCtorEq, if_true, if_false] at henc ⊢

variable (encodeMap) in
/-- What `encodeRequest` writes for a two-way call that converts back. -/
theorem encodeRequest_call (hf : hs.Forward) {msg₀ : MessageMetadata} {ctx : Context}
    (hr : ReadRequest f msg₀ ctx)
    (hmd : toMetadata hs msg₀ ctx (ofType t) = .ok md)
    (hrequest : requestTypeOf (peekByte flagOffset f) = .request)
    (hcast : ∃ msg, toMsgMetadata md = .ok msg) (m : Mutation) :
    ∃ a md', attachmentOf md = some a ∧ Found hs f messageSize a ∧
      encodeRequest encodeMap md m f =
        .ok (md', if m = [] then f else reserialize encodeMap f (mutate m a) messageSize) := by
  obtain ⟨msg, hmsg⟩ := hcast
  obtain ⟨invo, a, hl, ha, hfound⟩ := hr.attachment hf ((requestTypeOf_request _).1 hrequest).1 hmd
  have htype : msg.messageType = .request :=
    (toMsgMetadata_messageType hmsg (hr.lookup_messageType hmd)).trans hrequest
  have hi := toMsgMetadata_invocation hmsg hl
  have hhs : md.headerSize = messageSize := (toMetadata_fields hmd).2.trans hr.headerSize
  obtain ⟨md', henc⟩ := encodeRequest_eq hmsg htype hi ha hfound.fresh hhs m f
  exact ⟨a, md', by simp only [attachmentOf, hl, ha], hfound, henc⟩

variable (encodeMap) in
theorem Found.spliced {a : Attachment} (hfound : Found hs f messageSize a)
    (hsize : f.length = messageSize + peekBE 4 bodySizeOffset f) (m : Mutation) :
    Spliced f a.attachmentOffset (encodeMap (mutate m a).attachment)
      (reserialize encodeMap f (mutate m a) messageSize) := by
  have hlt : a.attachmentOffset < 2 ^ 64 := by
    have := peekBE_lt 4 bodySizeOffset f
    have := hfound.upper
    simp only [messageSize] at hsize
    omega
  rw [← mutate_attachmentOffset m a]
  apply reserialize_spliced
  · rw [mutate_attachmentOffset]
    exact hfound.lower
  · rw [mutate_attachmentOffset]
    exact hfound.upper
  · rw [mutate_attachmentOffset]
    exact hlt

theorem decodeAttachment_of_object {d : Decoder} {entries : List (Object × Object)}
    (h : (hs.decodeObject d).1 = some (.untypedMap entries)) (o : Nat) :
    (decodeAttachment hs d o).1.attachment = entries := by
  unfold decodeAttachment
  rcases hd : hs.decodeObject d with ⟨r, d'⟩
  rw [hd] at h
  cases h
  rfl

theorem Found.read_spliced {a : Attachment} (hfound : Found hs f messageSize a)
    (hsize : f.length = messageSize + peekBE 4 bodySizeOffset f)
    (hinv : Inverse hs encodeMap (mutate m a).attachment) :
    ((decodeAttachment hs ⟨reserialize encodeMap f (mutate m a) messageSize, a.attachmentOffset⟩
      a.attachmentOffset).1.attachment).Perm (mutate m a).attachment := by
  obtain ⟨before, hbefore, hsplit⟩ := (hfound.spliced encodeMap hsize m).split
  obtain ⟨entries, hperm, hread⟩ := hinv before
  rw [hbefore, ← hsplit] at hread
  rwa [decodeAttachment_of_object hread]

theorem RoundTrips.rewritable (hf : hs.Forward) (h : DubboCodec.decode hs {} f (ofType t) = .done c md [])
    (hreq : hasMask (peekByte flagOffset f) messageTypeMask = true)
    (hround : RoundTrips hs encodeMap f md m) : Rewritable hs encodeMap f md m := by
  obtain ⟨machine, hrun, hmd⟩ := decode_done h
  have hr := run_readRequest hrun hreq
  obtain ⟨md', g, a, henc, ha, hmut⟩ := hround
  obtain ⟨hcast, hrequest⟩ := encodeRequest_type henc (hr.lookup_messageType hmd)
  obtain ⟨hev, htw⟩ := (requestTypeOf_request _).1 hrequest
  refine ⟨hev, htw, (castable_iff_noClash h).1 (toMsgMetadata_ok_iff.1 hcast), fun hne a' ha' => ?_⟩
  obtain ⟨a'', md'', ha'', hfound, henc'⟩ := encodeRequest_call encodeMap hf hr hmd hrequest hcast m
  cases ha.symm.trans ha'
  cases ha.symm.trans ha''
  rw [henc, if_neg hne] at henc'
  cases henc'
  -- the length field holds the size modulo 2^32
  have hsp := hfound.spliced encodeMap hr.size m
  have hfield := hmut.length
  rw [hsp.length, hsp.size] at hfield
  have := Nat.mod_lt (a.attachmentOffset + (encodeMap (mutate m a).attachment).length - messageSize)
    (show 0 < 2 ^ 32 by decide)
  have := hfound.lower
  omega

theorem Rewritable.roundTrips (hrw : Rewritable hs encodeMap f md m) (hf : hs.Forward)
    (h : DubboCodec.decode hs {} f (ofType t) = .done c md [])
    (hreq : hasMask (peekByte flagOffset f) messageTypeMask = true) (hm : (m.map Prod.fst).Nodup)
    (hinv : ∀ a, attachmentOf md = some a → Inverse hs encodeMap (mutate m a).attachment) :
    RoundTrips hs encodeMap f md m := by
  obtain ⟨machine, hrun, hmd⟩ := decode_done h
  have hr := run_readRequest hrun hreq
  have hrequest := (requestTypeOf_request _).2 ⟨hrw.notEvent, hrw.twoWay⟩
  have hcast := toMsgMetadata_ok_iff.2 ((castable_iff_noClash h).2 hrw.noClash)
  obtain ⟨a, md', ha, hfound, henc⟩ := encodeRequest_call encodeMap hf hr hmd hrequest hcast m
  refine ⟨md', _, a, henc, ha, ?_⟩
  by_cases hne : m = []
  · subst hne
    rw [if_pos rfl]
    refine ⟨rfl, hr.size.symm, rfl, ?_, fun _ => rfl⟩
    rw [hfound.read]
    exact ⟨nofun, .refl _⟩
  · rw [if_neg hne]
    have hsp := hfound.spliced encodeMap hr.size m
    have hsize := hrw.size hne a ha
    refine ⟨hsp.header, ?_, hsp.body,
      mapUpdated_mutate hm (hfound.read_spliced hr.size (hinv a ha)), fun h => absurd h hne⟩
    have hlo := hfound.lower
    rw [hsp.length, hsp.size, Nat.mod_eq_of_lt (by omega)]
    omega

/-- **The frame is right exactly for a two-way call** without clashing attachments, if the new body
has a size. -/
theorem mutation_round_trip_iff (hf : hs.Forward) (h : DubboCodec.decode hs {} f (ofType t) = .done c md [])
    (hreq : hasMask (peekByte flagOffset f) messageTypeMask = true) (hm : (m.map Prod.fst).Nodup)
    (hinv : ∀ a, attachmentOf md = some a → Inverse hs encodeMap (mutate m a).attachment) :
    RoundTrips hs encodeMap f md m ↔ Rewritable hs encodeMap f md m :=
  ⟨fun hround => hround.rewritable hf h hreq, fun hrw => hrw.roundTrips hf h hreq hm hinv⟩

end RoundTrip

/-! ## Sample calls -/

theorem readAt_ahead {τ : Type} (cast : Object → Option τ) (d : Decoder) : Ahead d (readAt cast d).2 := by
  unfold readAt
  cases hv : fragmentValue (d.buffer.drop d.offset) with
  | none => exact .refl d
  | some p =>
    obtain ⟨v, k⟩ := p
    have hk := ((local_fragmentValue (d.buffer.drop d.offset) [] v k).1 hv).2
    rw [List.length_drop] at hk
    exact ⟨rfl, Nat.le_add_right _ _, fun h => by simp only [Decoder.skip]; omega⟩

theorem fragment_forward : fragment.Forward := ⟨readAt_ahead _, readAt_ahead _⟩

theorem inverse_of_fragmentValue {encodeMap : List (Object × Object) → Bytes}
    {entries : List (Object × Object)} {n : Nat}
    (h : fragmentValue (encodeMap entries) = some (.untypedMap entries, n)) :
    Inverse fragment encodeMap entries := by
  intro before
  refine ⟨entries, .refl _, ?_⟩
  simp only [fragment, readAt, List.drop_left, h]

theorem attachmentOf_request {f : Frame} (hf : f.WellFormedRequest fragment)
    (hev : f.isEvent = false) {invo : RpcInvocation}
    (hinvo : f.invocation fragment = .ok invo) : attachmentOf (frameMetadata fragment f.bytes) =
      invo.attachment := by
  have hw : Written (putInvocation (ofType .request) invo) { f.headed with invocationInfo := some invo } _ :=
    putMessage_written rfl
  rw [attachmentOf, getByKey_of_properties (request_properties fragment_local hf hev hinvo),
    hw.invocationInfo]

/-- A call with the attachment `{"k": "w"}`. -/
def taggedCall : Frame := callFrame 0xc2 [0x48, 0x01, 0x6b, 0x01, 0x77, 0x5a] (by decide)

theorem taggedCall_wellFormed : taggedCall.WellFormedRequest fragment :=
  ⟨rfl, rfl, by decide, fun _ => ⟨_, callFrame_invocation rfl⟩⟩

/-- The attachment gets a new value for `k`, and the name `x`. -/
theorem tagged_call_mutated :
    RoundTrips fragment encodeShortMap taggedCall.bytes (frameMetadata fragment taggedCall.bytes)
      [("k", "y"), ("x", "z")] := by
  have hdecode := decode_request fragment_local taggedCall_wellFormed
  have hattachment : attachmentOf (frameMetadata fragment taggedCall.bytes) =
      some { attachment := [(.string "k", .string "w")], attachmentOffset := 25 } :=
    attachmentOf_request taggedCall_wellFormed rfl (callFrame_invocation rfl)
  refine (mutation_round_trip_iff fragment_forward hdecode rfl (by decide) fun a ha => ?_).2
    ⟨rfl, rfl, ?_, fun _ a ha => ?_⟩
  · cases hattachment.symm.trans ha
    exact inverse_of_fragmentValue rfl
  · rw [noClash_request fragment_local taggedCall_wellFormed rfl (callFrame_invocation rfl)]
    simp [Attachment.strings, Object.toString]
  · cases hattachment.symm.trans ha
    decide

/-- A one-way call. -/
def onewayCall : Frame := callFrame 0x82 [0x48, 0x01, 0x6b, 0x01, 0x77, 0x5a] (by decide)

theorem onewayCall_wellFormed : onewayCall.WellFormedRequest fragment :=
  ⟨rfl, rfl, by decide, fun _ => ⟨_, callFrame_invocation rfl⟩⟩

/-- Without any mutation, `encodeRequest` on a call with the attachment `Timeout` ends in a
`bad_any_cast`, and on a one-way call in the case that is not implemented. -/
theorem calls_not_mutated :
    (∃ md, DubboCodec.decode fragment {} timeoutCall.bytes (ofType .request) = .done {} md [] ∧
      ¬ RoundTrips fragment encodeShortMap timeoutCall.bytes md []) ∧
    ∃ md, DubboCodec.decode fragment {} onewayCall.bytes (ofType .request) = .done {} md [] ∧
      ¬ RoundTrips fragment encodeShortMap onewayCall.bytes md [] := by
  refine ⟨⟨_, decode_request fragment_local timeoutCall_wellFormed, ?_⟩,
    ⟨_, decode_request fragment_local onewayCall_wellFormed, ?_⟩⟩
  · rintro ⟨md', g, a, henc, -, -⟩
    obtain ⟨msg, hmsg, -⟩ := bind_eq_ok.1 henc
    have hclash := (castable_iff_noClash (decode_request fragment_local timeoutCall_wellFormed)).1
      (toMsgMetadata_ok_iff.1 ⟨msg, hmsg⟩)
    rw [noClash_request fragment_local timeoutCall_wellFormed rfl timeoutCall_invocation] at hclash
    exact hclash "Timeout" (by decide) (by decide)
  · rintro ⟨md', g, a, henc, -, -⟩
    obtain ⟨machine, hrun, hmd⟩ := decode_done (decode_request fragment_local onewayCall_wellFormed)
    have htype := (run_readRequest hrun rfl).lookup_messageType hmd
    exact absurd (encodeRequest_type henc htype).2 (by decide)

end MetaProtocolProxy.Dubbo
