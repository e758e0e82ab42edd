import MetaProtocolProxy.Codec
/-
# Dubbo bodies (dubbo_hessian2_serializer_impl.cc, hessian_utils.cc, message_impl.h)

The body of a Dubbo message is a sequence of Hessian2 values. Hessian2 itself is a library
outside the repository: `Hessian2` is what its decoder does, and `Hessian2.ReadsBack` what
it promises about well-formed values. A `Decoder` is a position in a buffer; it is not told
where the message ends, so it can read into whatever follows it.

| here | there |
| --- | --- |
| `Object` | `Hessian2::Object`, by its `type()` |
| `none` of `decodeInt`, `decodeString`, `decodeObject` | the null pointer `decode<T>` returns |
| `Decoder.offset` | `Hessian2::Decoder::offset` |
| `RpcInvocation.delayedFrom` | where the delayed decoder of the lazy callbacks starts |

The header map kept beside an attachment and the service group are not modelled: nothing
below reads them.
-/
namespace MetaProtocolProxy.Dubbo

inductive Object
  | null
  | binary (bytes : Bytes)
  | boolean (b : Bool)
  | date (millis : Int)
  | double (bits : Nat)
  | integer (n : Int)
  | long (n : Int)
  | ref (index : Nat)
  | string (s : String)
  | typedList (type : String) (elements : List Object)
  | untypedList (elements : List Object)
  | typedMap (type : String) (entries : List (Object × Object))
  | untypedMap (entries : List (Object × Object))
  | classInstance (name : String) (fields : List Object)

/-- `Hessian2::Object::toString`: the text of a string object. -/
def Object.toString : Object → Option String
  | .string s => some s
  | _ => none

/-- `Hessian2::Decoder` over a `BufferReader`. -/
structure Decoder where
  buffer : Bytes
  offset : Nat := 0

def Decoder.skip (d : Decoder) (n : Nat) : Decoder := { d with offset := d.offset + n }

/-- `decode<T>` of the three types the serializer asks for. -/
structure Hessian2 where
  decodeInt : Decoder → Option Int × Decoder
  decodeString : Decoder → Option String × Decoder
  decodeObject : Decoder → Option Object × Decoder

/-- What the library promises. `Encodes before v bs`: behind the bytes `before`, which the
same decoder has read, `bs` is a well-formed value `v` (a value may refer back to earlier
ones). It is read back whole, whatever follows, and asking for a string where another
value stands gives null. -/
structure Hessian2.ReadsBack (hs : Hessian2) (Encodes : Bytes → Object → Bytes → Prop) : Prop where
  ne_nil : ∀ {before v bs}, Encodes before v bs → bs ≠ []
  int : ∀ {before n bs} rest, Encodes before (.integer n) bs →
    hs.decodeInt ⟨before ++ bs ++ rest, before.length⟩ =
      (some n, Decoder.skip ⟨before ++ bs ++ rest, before.length⟩ bs.length)
  string : ∀ {before s bs} rest, Encodes before (.string s) bs →
    hs.decodeString ⟨before ++ bs ++ rest, before.length⟩ =
      (some s, Decoder.skip ⟨before ++ bs ++ rest, before.length⟩ bs.length)
  mismatch : ∀ {before v bs} rest, Encodes before v bs → v.toString = none →
    (hs.decodeString ⟨before ++ bs ++ rest, before.length⟩).1 = none
  object : ∀ {before v bs} rest, Encodes before v bs →
    hs.decodeObject ⟨before ++ bs ++ rest, before.length⟩ =
      (some v, Decoder.skip ⟨before ++ bs ++ rest, before.length⟩ bs.length)

/-- `RpcInvocationImpl::Attachment`. -/
structure Attachment where
  attachment : List (Object × Object) := []
  attachmentOffset : Nat
  /-- Whether the attachment should be re-serialized. -/
  attachmentUpdated : Bool := false

/-- The loop over an attachment in `toMetadata`: the pairs of two strings. -/
def Attachment.strings (a : Attachment) : List (String × String) :=
  a.attachment.filterMap fun kv =>
    match kv.1.toString, kv.2.toString with
    | some k, some v => some (k, v)
    | _, _ => none

/-- `Attachment::remove`. -/
def Attachment.remove (a : Attachment) (key : String) : Attachment :=
  { a with attachment := a.attachment.filter fun kv => kv.1.toString != some key, attachmentUpdated := true }

/-- `Attachment::insert`. -/
def Attachment.insert (a : Attachment) (key value : String) : Attachment :=
  { a with attachment := a.attachment ++ [(.string key, .string value)], attachmentUpdated := true }

/-- `RpcInvocationImpl`; `parameters` and `attachment` are filled on first use. -/
structure RpcInvocation where
  serviceName : String
  methodName : String
  serviceVersion : String
  delayedFrom : Nat
  parameters : Option (List Object) := none
  attachment : Option Attachment := none

/-- `RpcResultImpl`. -/
structure RpcResult where
  hasException : Bool := false
  rspBody : String := ""
  attachment : Option Attachment := none

/-- `ContextImpl`. -/
structure Context where
  headerSize : Nat := 0
  bodySize : Nat := 0
  isHeartbeat : Bool := false
  originMessage : Bytes := []
  deriving DecidableEq, Repr

/-- One character of the loop of `getParametersNumber`: the count, and whether it is in the name of
an object type. -/
def scanParametersType (st : UInt32 × Bool) (ch : Char) : UInt32 × Bool :=
  let (count, next) := st
  if ch = '[' then st
  else if next && ch != ';' then st
  else if ch ∈ ['V', 'Z', 'B', 'C', 'D', 'F', 'I', 'J', 'S'] then (count + 1, next)
  else if ch = 'L' then (count + 1, true)
  else if ch = ';' then (count, false)
  else st

/-- `HessianUtils::getParametersNumber`: how many types a descriptor such as `[ILa/b;` has. -/
def getParametersNumber (parametersType : String) : UInt32 :=
  (parametersType.toList.foldl scanParametersType (0, false)).1

example : getParametersNumber "[ILjava/lang/String;Z" = 3 := by decide

variable (hs : Hessian2)

/-- An attachment is the untyped map at `d`; anything else counts as an empty one. -/
def decodeAttachment (d : Decoder) (offset : Nat) : Attachment × Decoder :=
  match hs.decodeObject d with
  | (some (.untypedMap entries), d) => ({ attachment := entries, attachmentOffset := offset }, d)
  | (_, d) => ({ attachmentOffset := offset }, d)

/-- `DubboHessian2SerializerImpl::deserializeRpcInvocation` (lines 18-82). -/
def deserializeRpcInvocation (buffer : Bytes) (context : Context) : Except Failure RpcInvocation :=
  let (dubboVersion, d) := hs.decodeString ⟨buffer, 0⟩
  let (serviceName, d) := hs.decodeString d
  let (serviceVersion, d) := hs.decodeString d
  let (methodName, d) := hs.decodeString d
  if context.bodySize < d.offset then
    .error (.envoyException s!"RpcInvocation size({d.offset}) larger than body size({context.bodySize})")
  else match dubboVersion, serviceName, serviceVersion, methodName with
    | some _, some serviceName, some serviceVersion, some methodName =>
      .ok { serviceName, methodName, serviceVersion, delayedFrom := context.headerSize + d.offset }
    | _, _, _, _ => .error (.envoyException "RpcInvocation has no request metadata")

/-- The loop of the parameters callback: `number` objects from `d` on. -/
def decodeParameters : Nat → Decoder → Except Failure (List Object × Decoder)
  | 0, d => .ok ([], d)
  | number + 1, d =>
    match hs.decodeObject d with
    | (some result, d) => do
      let (params, d) ← decodeParameters number d
      return (result :: params, d)
    | (none, _) => .error (.envoyException "Cannot parse RpcInvocation parameter from buffer")

def parametersCallback (d : Decoder) : Except Failure (List Object × Decoder) :=
  match hs.decodeString d with
  | (some types, d) => decodeParameters hs (getParametersNumber types).toNat d
  | (none, d) => .ok ([], d)

/-- `RpcInvocationImpl::attachment`: both callbacks, over the message kept by the context. -/
def RpcInvocation.assignAttachmentIfNeed (invo : RpcInvocation) (originMessage : Bytes) :
    Except Failure RpcInvocation :=
  match invo.attachment with
  | some _ => .ok invo
  | none => do
    let (params, d) ← parametersCallback hs ⟨originMessage, invo.delayedFrom⟩
    let (attachment, _) := decodeAttachment hs d d.offset
    return { invo with parameters := some params, attachment := some attachment }

/-- `RpcResponseType` (message.h). -/
inductive RpcResponseType
  | responseWithException
  | responseWithValue
  | responseWithNullValue
  | responseWithExceptionWithAttachments
  | responseValueWithAttachments
  | responseNullValueWithAttachments
  deriving DecidableEq, Repr

/-- `static_cast<RpcResponseType>`: the low byte; `none` is a value no enumerator has. -/
def RpcResponseType.ofInt (n : Int) : Option RpcResponseType :=
  match (n % 256).toNat with
  | 0 => some .responseWithException
  | 1 => some .responseWithValue
  | 2 => some .responseWithNullValue
  | 3 => some .responseWithExceptionWithAttachments
  | 4 => some .responseValueWithAttachments
  | 5 => some .responseNullValueWithAttachments
  | _ => none

/-- The locals the `switch` of `deserializeRpcResult` sets. -/
structure ResultShape where
  hasValueOrAttachment : Bool := true
  hasValue : Bool := false
  hasAttachment : Bool := false
  exception : Bool := false

/-- The `switch` of `deserializeRpcResult`. -/
def RpcResponseType.shape : RpcResponseType → ResultShape
  | .responseWithException => { hasValueOrAttachment := false, exception := true }
  | .responseWithExceptionWithAttachments =>
    { hasValueOrAttachment := false, exception := true, hasAttachment := true }
  -- falls through into the next case, which asks for an attachment
  | .responseWithNullValue => { hasValueOrAttachment := false, hasAttachment := true }
  | .responseNullValueWithAttachments => { hasAttachment := true }
  | .responseWithValue => { hasValue := true }
  | .responseValueWithAttachments => { hasValue := true, hasAttachment := true }

/-- The response body: `*responesebody` is taken without asking whether it is null. -/
def decodeRspBody (shape : ResultShape) (d : Decoder) : Except Failure (String × Decoder) :=
  if shape.hasValue then
    match hs.decodeString d with
    | (some body, d) => .ok (body, d)
    | (none, _) => .error (.nullDereference "responesebody")
  else .ok ("", d)

/-- `deserializeRpcResult` behind its `switch`. -/
def decodeResult (shape : ResultShape) (d : Decoder) (context : Context) : Except Failure RpcResult :=
  -- taken before the value and the attachment are read
  let totalSize := d.offset
  match decodeRspBody hs shape d with
  | .error e => .error e
  | .ok (body, d) =>
    let attachment :=
      if shape.hasAttachment then some (decodeAttachment hs d (context.headerSize + d.offset)).1 else none
    if context.bodySize < totalSize then
      .error (.envoyException s!"RpcResult size({totalSize}) large than body size({context.bodySize})")
    else if !shape.hasValueOrAttachment && context.bodySize != totalSize then
      .error (.envoyException
        s!"RpcResult is no value, but the rest of the body size({context.bodySize - totalSize}) not equal 0")
    else .ok { hasException := shape.exception, rspBody := body, attachment }

/-- `DubboHessian2SerializerImpl::deserializeRpcResult` (lines 89-174). -/
def deserializeRpcResult (buffer : Bytes) (context : Context) : Except Failure RpcResult :=
  match hs.decodeInt ⟨buffer, 0⟩ with
  | (none, _) => .error (.envoyException "Cannot parse RpcResult type from buffer")
  | (some typeValue, d) =>
    match RpcResponseType.ofInt typeValue with
    | none => .error (.envoyException s!"not supported return type {(typeValue % 256).toNat}")
    | some type => decodeResult hs type.shape d context

end MetaProtocolProxy.Dubbo
