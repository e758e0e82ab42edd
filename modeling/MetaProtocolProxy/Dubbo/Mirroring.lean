import MetaProtocolProxy.Dubbo.Mutation
/-
# Mirrored copies of a Dubbo request
(codec_impl.cc:68-82, router_impl.cc:66-128, dubbo_codec.cc:303-326)

The router keeps a clone of the request's metadata and clones it again for every mirror cluster.
A clone has its own copy of the message and of the property map, but the property `InvocationInfo`
is a `shared_ptr`: all copies see one invocation, and each encode sets the mutation in its
attachment.

| here | there |
| --- | --- |
| `CopyOf md` | the primary metadata and what `clone` makes of it |
| the state of `encodeCopies` | the invocation behind the shared pointer |

The map is encoded from the entries in their order (`mutate_mutate`: a second encode finds what the
first one left), so every copy ends as the first one does: `encodeCopies_eq`.

* `mirrored_copies_iff` — all copies give one frame, the call with the mutation in its attachment,
  exactly if the primary alone can be rewritten.
* `mirrored_calls_fail` — a one-way call, and a call with the attachment `Timeout`: no copy gives a
  frame.
-/
namespace MetaProtocolProxy.Dubbo

open Bytes

/-- The primary metadata, its clones, and their clones. -/
inductive CopyOf (md : Metadata DubboAny) : Metadata DubboAny → Prop
  | primary : CopyOf md md
  | clone {copy : Metadata DubboAny} (h : CopyOf md copy) : CopyOf md copy.clone

/-- The invocation of a message. -/
def invocationOf (md : Metadata DubboAny) : Option RpcInvocation :=
  match md.getByKey "InvocationInfo" with
  | some (.other (.invocationInfo invo)) => invo
  | _ => none

/-- One encode of a copy on its own bytes; the invocation is the shared one, before and after. -/
def encodeCopy (encodeMap : List (Object × Object) → Bytes) (m : Mutation) (shared : Option RpcInvocation)
    (copy : Metadata DubboAny) : Option RpcInvocation × Except Failure Bytes :=
  match encode encodeMap (copy.put "InvocationInfo" (.other (.invocationInfo shared))) m
    copy.originMessage with
  | .ok (md', bytes) => (invocationOf md', .ok bytes)
  | .error e => (shared, .error e)

/-- The copies are encoded one after the other. -/
def encodeCopies (encodeMap : List (Object × Object) → Bytes) (m : Mutation) :
    Option RpcInvocation → List (Metadata DubboAny) → List (Except Failure Bytes)
  | _, [] => []
  | shared, copy :: copies =>
    let (shared', r) := encodeCopy encodeMap m shared copy
    r :: encodeCopies encodeMap m shared' copies

/-! ## One encode -/

section Encode

variable {encodeMap : List (Object × Object) → Bytes} {m : Mutation} {md copy : Metadata DubboAny}
    {shared : Option RpcInvocation}

theorem mutate_mutate (hm : (m.map Prod.fst).Nodup) (a : Attachment) :
    mutate m (mutate m a) = mutate m a := by
  have hentries : (mutate m (mutate m a)).attachment = (mutate m a).attachment := by
    rw [mutate_attachment hm, filter_mutate hm, ← mutate_attachment hm]
  have hoffset := mutate_attachmentOffset m (mutate m a)
  have hupdated : (mutate m (mutate m a)).attachmentUpdated = (mutate m a).attachmentUpdated := by
    by_cases hne : m = []
    · subst hne
      rfl
    · rw [mutate_attachmentUpdated hne, mutate_attachmentUpdated hne]
  generalize mutate m (mutate m a) = x at hentries hoffset hupdated ⊢
  generalize mutate m a = y at hentries hoffset hupdated ⊢
  cases x
  cases y
  simp only at hentries hoffset hupdated
  rw [hentries, hoffset, hupdated]

def RpcInvocation.mutated (m : Mutation) (invo : RpcInvocation) : RpcInvocation :=
  { invo with attachment := invo.attachment.map (mutate m) }

theorem RpcInvocation.mutated_mutated (hm : (m.map Prod.fst).Nodup) (invo : RpcInvocation) :
    (invo.mutated m).mutated m = invo.mutated m := by
  obtain ⟨service, method, version, delayed, params, attachment⟩ := invo
  cases attachment with
  | none => rfl
  | some a => simp [RpcInvocation.mutated, mutate_mutate hm]

/-- The conversion reads the shared invocation, and the other properties as they are. -/
theorem toMsgMetadata_shared
    (hinfo : md.getByKey "InvocationInfo" = some (.other (.invocationInfo (invocationOf md))))
    (shared : Option RpcInvocation) :
    toMsgMetadata (md.put "InvocationInfo" (.other (.invocationInfo shared))) =
      (fun msg => { msg with invocationInfo := shared }) <$> toMsgMetadata md := by
  have hnew : optional Cast.invocationInfo
      (md.put "InvocationInfo" (.other (.invocationInfo shared))) "InvocationInfo" =
      .ok (some shared) := by
    simp [optional, Metadata.getByKey_put, Cast.invocationInfo]
  have hold : optional Cast.invocationInfo md "InvocationInfo" = .ok (some (invocationOf md)) := by
    simp [optional, hinfo, Cast.invocationInfo]
  simp (disch := decide) only [toMsgMetadata, hnew, hold, optional_put_ne, required_put_ne,
    getBool_put_ne, map_bind, map_pure]
  rfl

/-- The bytes of a request whose invocation is `invo` after the loop. -/
def encodedBytes (encodeMap : List (Object × Object) → Bytes) (md : Metadata DubboAny)
    (invo : Option RpcInvocation) : Except Failure Bytes := do
  let _ ← md.getString realServerAddress
  if md.messageType = .request then
    let msg ← toMsgMetadata md
    protocolEncode encodeMap md.originMessage { msg with invocationInfo := invo } (contextOf md) ""
  else .error (.panicked "not reached")

@[simp] theorem invocationOf_put (md : Metadata DubboAny) (invo : Option RpcInvocation) :
    invocationOf (md.put "InvocationInfo" (.other (.invocationInfo invo))) = invo := by
  simp [invocationOf, Metadata.getByKey_put]

/-- `encodeRequest` on a copy that sees the invocation `shared`. -/
theorem encodeRequest_shared
    (hinfo : md.getByKey "InvocationInfo" = some (.other (.invocationInfo (invocationOf md))))
    {msg : MessageMetadata} (hmsg : toMsgMetadata md = .ok msg) (shared : Option RpcInvocation)
    (buffer : Bytes) : ∃ md', invocationOf md' = shared.map (RpcInvocation.mutated m) ∧
      encodeRequest encodeMap (md.put "InvocationInfo" (.other (.invocationInfo shared))) m buffer =
        (protocolEncode encodeMap buffer
          { msg with invocationInfo := shared.map (RpcInvocation.mutated m) } (contextOf md) "").map
          (md', ·) := by
  have hconv := toMsgMetadata_shared hinfo shared
  rw [hmsg] at hconv
  have hpair : ∀ (x : Except Failure Bytes) (md' : Metadata DubboAny),
      (x >>= fun bytes => pure (md', bytes)) = x.map (md', ·) := by
    intro x md'
    cases x <;> rfl
  unfold encodeRequest
  rw [hconv]
  cases shared with
  | none => exact ⟨_, invocationOf_put md none, hpair _ _⟩
  | some invo =>
    let left := md.put "InvocationInfo" (.other (.invocationInfo (some invo)))
    exact ⟨_, invocationOf_put left (some (invo.mutated m)), hpair _ _⟩

/-- **One encode**: the bytes depend on the shared invocation only through what the loop makes of
it, and that is what it leaves. -/
theorem encodeCopy_eq
    (hinfo : md.getByKey "InvocationInfo" = some (.other (.invocationInfo (invocationOf md))))
    (htype : md.messageType = .request ∨ md.messageType = .oneway) (shared : Option RpcInvocation) :
    encodeCopy encodeMap m shared md =
      match encodedBytes encodeMap md (shared.map (RpcInvocation.mutated m)) with
      | .ok bytes => (shared.map (RpcInvocation.mutated m), .ok bytes)
      | .error e => (shared, .error e) := by
  have haddress : (md.put "InvocationInfo" (.other (.invocationInfo shared))).getString realServerAddress =
      md.getString realServerAddress := getString_put_ne _ (by decide)
  unfold encodeCopy encodedBytes encode
  rw [haddress, Metadata.put_messageType]
  cases md.getString realServerAddress with
  | error e => rfl
  | ok s =>
    rcases htype with htype | htype
    · simp only [htype, bind, Except.bind, if_true]
      cases hmsg : toMsgMetadata md with
      | error e =>
        have hconv := toMsgMetadata_shared hinfo shared
        rw [hmsg] at hconv
        simp only [encodeRequest, hconv]
        rfl
      | ok msg =>
        obtain ⟨md', hleft, henc⟩ := encodeRequest_shared hinfo hmsg shared md.originMessage
        rw [henc]
        dsimp only
        cases protocolEncode encodeMap md.originMessage
            { msg with invocationInfo := shared.map (RpcInvocation.mutated m) }
            (contextOf md) "" with
        | error e => rfl
        | ok bytes => simp only [Except.map, hleft]
    · simp only [htype, bind, Except.bind, reduceCtorEq, if_false]

end Encode

/-! ## All encodes -/

section Copies

variable {encodeMap : List (Object × Object) → Bytes} {m : Mutation} {md copy : Metadata DubboAny}

theorem CopyOf.cases (h : CopyOf md copy) : copy = md ∨ copy = md.clone := by
  induction h with
  | primary => exact .inl rfl
  | clone h ih =>
    rcases ih with rfl | rfl
    · exact .inr rfl
    · exact .inr rfl

theorem CopyOf.encodeCopy_eq (h : CopyOf md copy)
    (hinfo : md.getByKey "InvocationInfo" = some (.other (.invocationInfo (invocationOf md))))
    (htype : md.messageType = .request ∨ md.messageType = .oneway) (shared : Option RpcInvocation) :
    encodeCopy encodeMap m shared copy =
      match encodedBytes encodeMap md (shared.map (RpcInvocation.mutated m)) with
      | .ok bytes => (shared.map (RpcInvocation.mutated m), .ok bytes)
      | .error e => (shared, .error e) := by
  rcases h.cases with rfl | rfl
  · exact Dubbo.encodeCopy_eq hinfo htype shared
  · exact @Dubbo.encodeCopy_eq encodeMap m md.clone hinfo htype shared

theorem encodeCopies_eq (hm : (m.map Prod.fst).Nodup)
    (hinfo : md.getByKey "InvocationInfo" = some (.other (.invocationInfo (invocationOf md))))
    (htype : md.messageType = .request ∨ md.messageType = .oneway) {copies : List (Metadata DubboAny)}
    (hcopies : ∀ copy ∈ copies, CopyOf md copy) {shared after : Option RpcInvocation}
    (hshared : shared.map (RpcInvocation.mutated m) = after) :
    encodeCopies encodeMap m shared copies = copies.map fun _ => encodedBytes encodeMap md after := by
  induction copies generalizing shared with
  | nil => rfl
  | cons copy copies ih =>
    have hstep : encodeCopy encodeMap m shared copy = _ :=
      (hcopies copy List.mem_cons_self).encodeCopy_eq hinfo htype shared
    rw [hshared] at hstep
    have hrest := fun c hc => hcopies c (List.mem_cons_of_mem copy hc)
    -- the loop finds its own entries
    have hagain : after.map (RpcInvocation.mutated m) = after := by
      rw [← hshared, Option.map_map]
      exact congrArg (Option.map · shared) (funext (RpcInvocation.mutated_mutated hm))
    cases hbytes : encodedBytes encodeMap md after with
    | error e =>
      rw [hbytes] at hstep ih
      simp only [encodeCopies, hstep, List.map_cons, ih hrest hshared]
    | ok bytes =>
      rw [hbytes] at hstep ih
      simp only [encodeCopies, hstep, List.map_cons, ih hrest hagain]

theorem encode_bytes
    (hinfo : md.getByKey "InvocationInfo" = some (.other (.invocationInfo (invocationOf md))))
    (htype : md.messageType = .request ∨ md.messageType = .oneway) :
    (encode encodeMap md m md.originMessage).map Prod.snd =
      encodedBytes encodeMap md ((invocationOf md).map (RpcInvocation.mutated m)) := by
  unfold encodedBytes encode
  cases md.getString realServerAddress with
  | error e => rfl
  | ok s =>
    rcases htype with htype | htype
    · simp only [htype, bind, Except.bind, if_true, encodeRequest]
      cases hmsg : toMsgMetadata md with
      | error e => rfl
      | ok msg =>
        dsimp only
        rw [toMsgMetadata_invocation hmsg hinfo]
        split
        · next hbytes => exact hbytes.symm
        · next hbytes => exact hbytes.symm
    · simp only [htype, bind, Except.bind, reduceCtorEq, if_false]
      rfl

end Copies

/-! ## A decoded request -/

section Decoded

variable {hs : Hessian2} {encodeMap : List (Object × Object) → Bytes} {f : Bytes} {c : DubboCodec}
  {md : Metadata DubboAny} {t : MessageType} {m : Mutation} {copies : List (Metadata DubboAny)}

/-- Every copy gives one frame, the call `f` with the mutation in its attachment. -/
def CopiesMirror (hs : Hessian2) (encodeMap : List (Object × Object) → Bytes) (f : Bytes)
    (md : Metadata DubboAny) (m : Mutation) (copies : List (Metadata DubboAny)) : Prop :=
  ∃ g a, encodeCopies encodeMap m (invocationOf md) copies = (copies.map fun _ => .ok g) ∧
    attachmentOf md = some a ∧ Mutated hs f a m g

theorem decoded_messageType (h : DubboCodec.decode hs {} f (Metadata.ofType t) = .done c md [])
    (hreq : hasMask (peekByte flagOffset f) messageTypeMask = true) :
    md.messageType = (requestTypeOf (peekByte flagOffset f)).toMessageType := by
  obtain ⟨machine, hrun, hmd⟩ := decode_done h
  rw [(toMetadata_fields hmd).1, (run_readRequest hrun hreq).messageType]

theorem decoded_call (h : DubboCodec.decode hs {} f (Metadata.ofType t) = .done c md [])
    (hreq : hasMask (peekByte flagOffset f) messageTypeMask = true)
    (hev : hasMask (peekByte flagOffset f) eventMask = false) :
    md.messageType = .request ∨ md.messageType = .oneway := by
  rw [decoded_messageType h hreq, requestTypeOf, if_neg (by simp [hev])]
  cases hasMask (peekByte flagOffset f) twoWayMask <;> simp [DubboMessageType.toMessageType]

/-- All copies do what `encode` does with the primary alone. -/
theorem encodeCopies_primary (hf : hs.Forward)
    (h : DubboCodec.decode hs {} f (Metadata.ofType t) = .done c md [])
    (hreq : hasMask (peekByte flagOffset f) messageTypeMask = true)
    (hev : hasMask (peekByte flagOffset f) eventMask = false)
    (hm : (m.map Prod.fst).Nodup) (hcopies : ∀ copy ∈ copies, CopyOf md copy) :
    encodeCopies encodeMap m (invocationOf md) copies = copies.map fun _ =>
      (encode encodeMap md m f).map Prod.snd := by
  obtain ⟨machine, hrun, hmd⟩ := decode_done h
  have hr := run_readRequest hrun hreq
  obtain ⟨invo, a, hl, -, -⟩ := hr.attachment hf hev hmd
  have hinfo : md.getByKey "InvocationInfo" = some (.other (.invocationInfo (invocationOf md))) := by
    rw [invocationOf, hl]
  have htype := decoded_call h hreq hev
  have horigin : md.originMessage = f :=
    (toMetadata_originMessage hr.rpcResultInfo hmd).trans hr.originMessage
  have hprimary : (encode encodeMap md m md.originMessage).map Prod.snd = _ := encode_bytes hinfo htype
  rw [horigin] at hprimary
  rw [encodeCopies_eq hm hinfo htype hcopies rfl, hprimary]

/-- A frame comes from `encodeRequest`. -/
theorem encode_ok (htype : md.messageType = .request ∨ md.messageType = .oneway) {g : Bytes}
    (h : (encode encodeMap md m f).map Prod.snd = .ok g) :
    ∃ md', encodeRequest encodeMap md m f = .ok (md', g) := by
  cases henc : encode encodeMap md m f with
  | error e =>
    rw [henc] at h
    cases h
  | ok r =>
    rw [henc] at h
    cases h
    obtain ⟨s, -, hcase⟩ := bind_eq_ok.1 henc
    rcases htype with htype | htype <;> rw [htype] at hcase
    · exact ⟨r.1, hcase⟩
    · cases hcase

/-- **All copies give the frame they should exactly if the primary alone can be rewritten**: the
encodes before an encode make no difference to it. -/
theorem mirrored_copies_iff (hf : hs.Forward)
    (h : DubboCodec.decode hs {} f (Metadata.ofType t) = .done c md [])
    (hreq : hasMask (peekByte flagOffset f) messageTypeMask = true)
    (hev : hasMask (peekByte flagOffset f) eventMask = false)
    (hm : (m.map Prod.fst).Nodup)
    (hinv : ∀ a, attachmentOf md = some a → Inverse hs encodeMap (mutate m a).attachment)
    (hcopies : ∀ copy ∈ copies, CopyOf md copy) (hne : copies ≠ []) :
    CopiesMirror hs encodeMap f md m copies ↔ Rewritable hs encodeMap f md m := by
  have hall := @encodeCopies_primary hs encodeMap _ _ _ _ _ _ hf h hreq hev hm hcopies
  constructor
  · rintro ⟨g, a, hcopy, ha, hmut⟩
    obtain ⟨copy, hmem⟩ := List.exists_mem_of_ne_nil copies hne
    rw [hall, List.map_inj_left] at hcopy
    obtain ⟨md', henc⟩ := encode_ok (decoded_call h hreq hev) (hcopy copy hmem)
    exact RoundTrips.rewritable hf h hreq ⟨md', g, a, henc, ha, hmut⟩
  · intro hrw
    obtain ⟨md', g, a, henc, ha, hmut⟩ := hrw.roundTrips hf h hreq hm hinv
    obtain ⟨s, haddress⟩ := (ready_of_noClash h hrw.noClash).address
    have hrequest : md.messageType = .request := by
      rw [decoded_messageType h hreq, (requestTypeOf_request _).2 ⟨hrw.notEvent, hrw.twoWay⟩]
      rfl
    refine ⟨g, a, ?_, ha, hmut⟩
    rw [hall, encode, haddress]
    simp only [bind, Except.bind, hrequest, henc]
    rfl

end Decoded

/-- The call with the attachment `{"k": "w"}`, its clone and a clone of that, with the mutation
`{"k": "y"}`. -/
theorem tagged_call_mirrored :
    CopiesMirror fragment encodeShortMap taggedCall.bytes (frameMetadata fragment taggedCall.bytes)
      [("k", "y")]
      [(frameMetadata fragment taggedCall.bytes).clone, frameMetadata fragment taggedCall.bytes,
        (frameMetadata fragment taggedCall.bytes).clone.clone] := by
  have hattachment : attachmentOf (frameMetadata fragment taggedCall.bytes) =
      some { attachment := [(.string "k", .string "w")], attachmentOffset := 25 } :=
    attachmentOf_request taggedCall_wellFormed rfl (callFrame_invocation rfl)
  have hdecode := decode_request fragment_local taggedCall_wellFormed
  refine (mirrored_copies_iff fragment_forward hdecode rfl rfl (by simp) (fun a ha => ?_) ?_ (by simp)).2
    ⟨rfl, rfl, ?_, fun _ a ha => ?_⟩
  · cases hattachment.symm.trans ha
    exact inverse_of_fragmentValue rfl
  · simp only [List.mem_cons, List.not_mem_nil, or_false, forall_eq_or_imp, forall_eq]
    exact ⟨.clone .primary, .primary, .clone (.clone .primary)⟩
  · rw [noClash_request fragment_local taggedCall_wellFormed rfl (callFrame_invocation rfl)]
    simp [Attachment.strings, Object.toString]
  · cases hattachment.symm.trans ha
    decide

/-- A primary that cannot be encoded and its clone. -/
theorem copies_fail {f : Bytes} {md : Metadata DubboAny} {e : Failure}
    (h : DubboCodec.decode fragment {} f (Metadata.ofType .request) = .done {} md [])
    (hreq : hasMask (peekByte flagOffset f) messageTypeMask = true)
    (hev : hasMask (peekByte flagOffset f) eventMask = false)
    (henc : (encode encodeShortMap md [] f).map Prod.snd = .error e) :
    encodeCopies encodeShortMap [] (invocationOf md) [md, md.clone] = [.error e, .error e] ∧
      ¬ CopiesMirror fragment encodeShortMap f md [] [md, md.clone] := by
  have hcopies : ∀ copy ∈ [md, md.clone], CopyOf md copy := by
    simp only [List.mem_cons, List.not_mem_nil, or_false, forall_eq_or_imp, forall_eq]
    exact ⟨.primary, .clone .primary⟩
  have hall : encodeCopies encodeShortMap [] (invocationOf md) [md, md.clone] = _ :=
    encodeCopies_primary fragment_forward h hreq hev List.nodup_nil hcopies
  rw [henc] at hall
  refine ⟨hall, ?_⟩
  rintro ⟨g, a, hcopy, -, -⟩
  cases hall.symm.trans hcopy

/-- The primary and one clone of a one-way call, and of a call with the attachment `Timeout`:
without any mutation, each encode ends in the case that is not reached, and in a `bad_any_cast`. -/
theorem mirrored_calls_fail :
    (∃ md, DubboCodec.decode fragment {} onewayCall.bytes (Metadata.ofType .request) = .done {} md [] ∧
      encodeCopies encodeShortMap [] (invocationOf md) [md, md.clone] =
        [.error (.panicked "not reached"), .error (.panicked "not reached")] ∧
      ¬ CopiesMirror fragment encodeShortMap onewayCall.bytes md [] [md, md.clone]) ∧
    ∃ md, DubboCodec.decode fragment {} timeoutCall.bytes (Metadata.ofType .request) = .done {} md [] ∧
      encodeCopies encodeShortMap [] (invocationOf md) [md, md.clone] =
        [.error .badAnyCast, .error .badAnyCast] ∧
      ¬ CopiesMirror fragment encodeShortMap timeoutCall.bytes md [] [md, md.clone] := by
  have honeway := decode_request fragment_local onewayCall_wellFormed
  have htimeout := decode_request fragment_local timeoutCall_wellFormed
  refine ⟨⟨_, honeway, copies_fail honeway rfl rfl ?_⟩,
    ⟨_, htimeout, copies_fail htimeout rfl rfl ?_⟩⟩
  · have hclash : NoClash fragment onewayCall.bytes := by
      rw [noClash_request fragment_local onewayCall_wellFormed rfl (callFrame_invocation rfl)]
      simp [Attachment.strings, Object.toString]
    obtain ⟨s, haddress⟩ := (ready_of_noClash honeway hclash).address
    rw [encode, haddress]
    simp only [bind, Except.bind, show _ = MessageType.oneway from decoded_messageType honeway rfl]
    rfl
  · rw [encode, timeoutCall_converted.2]
    simp only [bind, Except.bind, show _ = MessageType.request from decoded_messageType htimeout
      rfl, encodeRequest, timeoutCall_converted.1]
    rfl

end MetaProtocolProxy.Dubbo
