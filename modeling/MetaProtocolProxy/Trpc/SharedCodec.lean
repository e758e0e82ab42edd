import MetaProtocolProxy.Trpc.Frames
import MetaProtocolProxy.Stream
import MetaProtocolProxy.Lib.Runs
/-
# One codec, many byte streams (conn_manager.cc:171-176, stream.cc:27-52)

`ConnectionManager::newActiveStream` gives every `Stream` a reference to the connection's
single codec. The chunks of the client (`ConnectionManager::onData`) and those of each
stream's upstream connection (`Stream::onUpstreamData`) are then decoded by one
`TrpcCodec`, whose `decode_stage_`, `total_size_` and header fields survive from chunk to
chunk. `ActiveMessage::startUpstreamResponse` makes a codec of its own for each response.

The state is one downstream connection with the streams attached to upstream connections; an
event is one chunk of one byte stream. What the message handlers do with a decoded message is
arbitrary (`handle`), as long as they return.

* `own_frames` — in every run in which no chunk is decoded while the codec is inside a frame
  of another byte stream, each byte stream yields exactly its own frames.
* `downstream_header_claims_upstream_frame` — the header of a client frame, then a chunk of
  an upstream: the upstream's frame is cut with the client's header.
-/
namespace MetaProtocolProxy.Trpc.SharedCodec

open Framing Runs

variable {δ α : Type}

/-- The byte streams of a downstream connection: the client's, and one per upstream
connection of a stream. -/
inductive Dir
  | downstream
  | upstream (conn : ConnId)
  deriving DecidableEq, Repr

/-- The message type a byte stream is decoded with. -/
def Dir.type : Dir → MessageType
  | .downstream => .request
  | .upstream _ => .response

inductive Event
  | downstreamData (data : Bytes)
  | upstreamData (conn : ConnId) (data : Bytes) (endStream : Bool)
  deriving DecidableEq, Repr

def Event.dir : Event → Dir
  | .downstreamData _ => .downstream
  | .upstreamData conn _ _ => .upstream conn

def Event.data : Event → Bytes
  | .downstreamData data => data
  | .upstreamData _ data _ => data

structure State (δ α : Type) where
  codec : TrpcCodec := {}
  decoder : DecoderBase := {}
  world : δ
  /-- The stream an upstream connection is attached to. -/
  streams : ConnId → Option Stream
  /-- `request_buffer_`, and the read buffer of each upstream connection. -/
  buffer : Dir → Bytes := fun _ => []
  /-- The messages decoded from each byte stream. -/
  decoded : Dir → List (Metadata α) := fun _ => []
  /-- All bytes delivered so far (not part of the program). -/
  received : Dir → Bytes := fun _ => []
  /-- The byte stream the codec was last called for (not part of the program). -/
  last : Option Dir := none
  /-- An exception, a use of a destroyed stream, or a loop that did not end. -/
  broken : Bool := false

/-- What the message handlers do, on their own state and on the streams. -/
abbrev Handler (δ α : Type) := Metadata α → δ × (ConnId → Option Stream) → δ × (ConnId → Option Stream)

def delegate (handle : Handler δ α) : Delegate ((δ × (ConnId → Option Stream)) × List (Metadata α)) α where
  onHeartbeat _ w := (.ok false, w)
  newStream md _ w := (.ok (), (handle md w.1, w.2 ++ [md]))

/-- The bookkeeping after a chunk of `d`: what is left in its buffer, and its new messages. -/
def State.record (s : State δ α) (d : Dir) (data : Bytes) (codec : TrpcCodec) (rest : Bytes)
    (ms : List (Metadata α)) : State δ α :=
  { s with
    codec := codec
    buffer := Function.update s.buffer d rest
    decoded := Function.update s.decoded d (s.decoded d ++ ms)
    received := Function.update s.received d (s.received d ++ data)
    last := some d }

variable (pb : Protobuf) (handle : Handler δ α)

/-- `ConnectionManager::onData` up to the end of `dispatch`. -/
def onDownstreamData (s : State δ α) (data : Bytes) : State δ α :=
  let buf := s.buffer .downstream ++ data
  match dispatch (trpcCodec α pb) .request (delegate handle) (buf.length + 1) s.decoder s.codec
      ((s.world, s.streams), []) buf with
  | some ⟨.ok _, d, c, w, rest⟩ =>
    { s.record .downstream data c rest w.2 with decoder := d, world := w.1.1, streams := w.1.2 }
  | _ => { s with broken := true }

/-- `Stream::onUpstreamData`, on the stream the connection is attached to. -/
def onUpstreamData (s : State δ α) (conn : ConnId) (data : Bytes) (endStream : Bool) : State δ α :=
  match s.streams conn with
  | none => s
  | some st =>
    let buf := s.buffer (.upstream conn) ++ data
    match Stream.send2downstream (trpcCodec α pb) endStream (buf.length + 1) s.codec st buf with
    | some ⟨c, st', rest, ms, .returned⟩ =>
      { s.record (.upstream conn) data c rest ms with streams := Function.update s.streams conn (some st') }
    | some ⟨c, _, rest, ms, .cleared⟩ =>
      { s.record (.upstream conn) data c rest ms with streams := Function.update s.streams conn none }
    | _ => { s with broken := true }

def step (s : State δ α) (e : Event) : State δ α :=
  if s.broken then s
  else match e with
    | .downstreamData data => onDownstreamData pb handle s data
    | .upstreamData conn data endStream => onUpstreamData pb s conn data endStream

/-- The byte streams are what the peers send: each chunk continues a concatenation of its
stream's `frames`, and upstream chunks arrive on the connections of active streams. -/
structure Delivered (frames : Dir → List Bytes) (s : State δ α) (e : Event) : Prop where
  nonempty : e.data ≠ []
  own : s.received e.dir ++ e.data <+: (frames e.dir).flatten
  active : match e with
    | .downstreamData _ => True
    | .upstreamData conn _ _ => (s.streams conn).isSome = true

/-- The codec is between two frames, or inside a frame of the byte stream the chunk belongs to. -/
def NotMidOther (s : State δ α) (e : Event) : Prop :=
  s.codec.decodeStage = .decodeFixedHeader ∨ s.last = some e.dir

def NothingAfterClear (frames : Dir → List Bytes) (s : State δ α) : Event → Prop
  | .downstreamData _ => True
  | .upstreamData conn data endStream => ∀ st ∈ s.streams conn,
      let d := Dir.upstream conn
      let closes := fun f => Stream.clears endStream st (frameMetadata α pb .response f).messageType
      (∀ f ∈ (completed (frames d) (s.received d) data).dropLast, closes f = false) ∧
        ∀ f ∈ (completed (frames d) (s.received d) data).getLast?, closes f = true →
          residue (frames d) (s.received d ++ data) = []

def decodedAlone (α : Type) (pb : Protobuf) (t : MessageType) (bytes : Bytes) : List (Metadata α) :=
  (drain ((trpcCodec α pb).decodeAs t) (bytes.length + 1) {} bytes).out

/-- Every byte stream has yielded the messages of its own frames: those complete in the bytes
received so far, all of them once everything is received, and as a codec of its own would. -/
structure OwnFrames (frames : Dir → List Bytes) (s : State δ α) : Prop where
  ok : s.broken = false
  own : ∀ d, s.decoded d = (arrived (frames d) (s.received d)).map (frameMetadata α pb d.type)
  all : ∀ d, s.received d = (frames d).flatten → s.decoded d = (frames d).map (frameMetadata α pb d.type)
  alone : ∀ d, s.decoded d = decodedAlone α pb d.type (s.received d)

/-! ## The invariant -/

/-- Each byte stream has yielded its complete frames and holds the piece of the next one in its
buffer; the codec remembers only what belongs to the byte stream it was last called for. -/
structure Inv (frames : Dir → List Bytes) (s : State δ α) : Prop where
  ok : s.broken = false
  own : ∀ d, s.received d <+: (frames d).flatten
  decoded : ∀ d, s.decoded d = (arrived (frames d) (s.received d)).map (frameMetadata α pb d.type)
  buffer : ∀ d, s.buffer d = residue (frames d) (s.received d)
  idle : s.last = none → s.codec.decodeStage = .decodeFixedHeader
  owner : ∀ d, s.last = some d → Resumes pb d.type (s.buffer d) s.codec (s.buffer d)

variable {pb handle} {frames : Dir → List Bytes} {s : State δ α}

/-- Where the condition puts the codec: it can go on with the piece the chunk continues. -/
theorem Inv.resumes (hI : Inv pb frames s) {e : Event} (hx : NotMidOther s e) :
    Resumes pb e.dir.type (residue (frames e.dir) (s.received e.dir)) s.codec (s.buffer e.dir) := by
  rw [← hI.buffer e.dir]
  rcases hx with hidle | hlast
  · exact resumes_boundary hidle _
  · exact hI.owner e.dir hlast

theorem Inv.record (hI : Inv pb frames s) {d : Dir} {data rest : Bytes} {c : TrpcCodec}
    (hown : s.received d ++ data <+: (frames d).flatten)
    (hR : Resumes pb d.type (residue (frames d) (s.received d ++ data)) c rest) :
    Inv pb frames (s.record d data c rest
      ((completed (frames d) (s.received d) data).map (frameMetadata α pb d.type))) := by
  have hrest : rest = residue (frames d) (s.received d ++ data) := hR.1
  refine ⟨hI.ok, fun d' => ?_, fun d' => ?_, fun d' => ?_, by simp [State.record], fun d' hlast => ?_⟩
  · by_cases hd : d' = d
    · subst hd; simpa [State.record] using hown
    · simpa [State.record, hd] using hI.own d'
  · by_cases hd : d' = d
    · subst hd
      simp only [State.record, Function.update_self]
      rw [arrived_append, List.map_append, hI.decoded d']
    · simpa [State.record, hd] using hI.decoded d'
  · by_cases hd : d' = d
    · subst hd; simpa [State.record] using hrest
    · simpa [State.record, hd] using hI.buffer d'
  · obtain rfl : d = d' := Option.some.inj hlast
    simp only [State.record, Function.update_self]
    rw [hrest] at hR ⊢
    exact hR

/-- Both loops decode a chunk like `Framing.drain`, with the frames it completes. -/
theorem Inv.drain_chunk (hwf : ∀ d, ∀ f ∈ frames d, ∃ h, WellFormedFrame pb d.type f h) (hI : Inv pb frames s)
    {e : Event} (hd : Delivered frames s e) (hx : NotMidOther s e) :
    ∃ c rest, Resumes pb e.dir.type (residue (frames e.dir) (s.received e.dir ++ e.data)) c rest ∧
      drain ((trpcCodec α pb).decodeAs e.dir.type) ((s.buffer e.dir ++ e.data).length + 1) s.codec
        (s.buffer e.dir ++ e.data) = ⟨c, rest, (completed (frames e.dir) (s.received e.dir) e.data).map
          (frameMetadata α pb e.dir.type), .underflow⟩ := by
  have hfs : ∀ f ∈ frames e.dir, IsFrame ((trpcCodec α pb).decodeAs e.dir.type) (Resumes pb e.dir.type) f
      (frameMetadata α pb e.dir.type f) := fun f hf => by
    obtain ⟨h, hf⟩ := hwf e.dir f hf
    exact isFrame hf
  have hlen := length_completed_le (fun f hf => (hfs f hf).ne) hd.own
  have hfuel : (completed (frames e.dir) (s.received e.dir) e.data).length <
      (s.buffer e.dir ++ e.data).length + 1 := by
    rw [List.length_append]
    omega
  exact Framing.drain_chunk hfs hd.own (hI.resumes hx) hd.nonempty hfuel

theorem foldl_record (handle : Handler δ α) (ms : List (Metadata α))
    (w : (δ × (ConnId → Option Stream)) × List (Metadata α)) :
    (ms.foldl (fun w md => (handle md w.1, w.2 ++ [md])) w).2 = w.2 ++ ms := by
  induction ms generalizing w with
  | nil => simp
  | cons m ms ih => simp [ih]

theorem Dir.type_ne_heartbeat (d : Dir) : d.type ≠ .heartbeat := by
  cases d <;> simp [Dir.type]

theorem inv_downstream (hwf : ∀ d, ∀ f ∈ frames d, ∃ h, WellFormedFrame pb d.type f h) (hI : Inv pb frames s)
    {data : Bytes} (hd : Delivered frames s (.downstreamData data))
    (hx : NotMidOther s (.downstreamData data)) :
    Inv pb frames (onDownstreamData pb handle s data) := by
  obtain ⟨c, rest, hR, hdrain⟩ := hI.drain_chunk hwf hd hx
  simp only [Event.dir, Event.data] at hR hdrain
  have hne : s.buffer .downstream ++ data ≠ [] := by simp [show data ≠ [] from hd.nonempty]
  have hret : ∀ m ∈ (completed (frames .downstream) (s.received .downstream) data).map
      (frameMetadata α pb Dir.downstream.type),
      (delegate handle).Returns (fun md w => (handle md w.1, w.2 ++ [md])) m := by
    intro m hm
    obtain ⟨f, -, rfl⟩ := List.mem_map.1 hm
    rw [Delegate.Returns, if_neg (frameMetadata_ne_heartbeat (Dir.type_ne_heartbeat _))]
    exact fun _ => rfl
  obtain ⟨d', hloop⟩ :=
    dispatchLoop_of_drain (d := s.decoder) (w := ((s.world, s.streams), [])) _ hret hne hdrain
  have hI' := hI.record (d := .downstream) hd.own hR
  have hms := foldl_record handle ((completed (frames .downstream) (s.received .downstream) data).map
    (frameMetadata α pb .request)) ((s.world, s.streams), [])
  simp only [onDownstreamData, dispatch, List.isEmpty_iff, hne, if_false]
  simp only [Dir.type] at hloop hI' hR
  rw [hloop]
  simp only [hms, List.nil_append]
  exact ⟨hI'.ok, hI'.own, hI'.decoded, hI'.buffer, hI'.idle, hI'.owner⟩

theorem inv_upstream (hwf : ∀ d, ∀ f ∈ frames d, ∃ h, WellFormedFrame pb d.type f h) (hI : Inv pb frames s)
    {conn : ConnId} {data : Bytes} {endStream : Bool}
    (hd : Delivered frames s (.upstreamData conn data endStream))
    (hx : NotMidOther s (.upstreamData conn data endStream))
    (hclear : NothingAfterClear pb frames s (.upstreamData conn data endStream)) :
    Inv pb frames (onUpstreamData pb s conn data endStream) := by
  obtain ⟨c, rest, hR, hdrain⟩ := hI.drain_chunk hwf hd hx
  simp only [Event.dir, Event.data] at hR hdrain
  obtain ⟨st, hst⟩ := Option.isSome_iff_exists.1 hd.active
  obtain ⟨hbefore, hafter⟩ := hclear st hst
  have hlast : ∀ m ∈ ((completed (frames (.upstream conn)) (s.received (.upstream conn)) data).map
      (frameMetadata α pb .response)).dropLast, Stream.clears endStream st m.messageType = false := by
    intro m hm
    rw [← List.map_dropLast] at hm
    obtain ⟨f, hf, rfl⟩ := List.mem_map.1 hm
    exact hbefore f hf
  have hend : ∀ m ∈ ((completed (frames (.upstream conn)) (s.received (.upstream conn)) data).map
      (frameMetadata α pb .response)).getLast?, Stream.clears endStream st m.messageType = true →
          rest = [] := by
    intro m hm hc
    rw [List.getLast?_map, Option.mem_def, Option.map_eq_some_iff] at hm
    obtain ⟨f, hf, rfl⟩ := hm
    rw [hR.1]
    exact hafter f hf hc
  have hkeep : ∀ c b c' r, (trpcCodec α pb).decodeAs .response c b = .wait c' r → r = b :=
    fun c b c' r h => TrpcCodec.decode_wait pb c b (α := α) h
  obtain ⟨st', how, hrun, hhow⟩ := Stream.send2downstream_of_drain hkeep hdrain hlast hend
  have hI' := hI.record (d := .upstream conn) hd.own hR
  simp only [onUpstreamData, hst, hrun]
  rcases hhow with rfl | rfl <;> exact ⟨hI'.ok, hI'.own, hI'.decoded, hI'.buffer, hI'.idle, hI'.owner⟩

/-- The condition under which the byte streams stay apart, besides the peers' contract. -/
structure Apart (pb : Protobuf) (frames : Dir → List Bytes) (s : State δ α) (e : Event) : Prop where
  delivered : Delivered frames s e
  notMidOther : NotMidOther s e
  nothingAfterClear : NothingAfterClear pb frames s e

theorem inv_step (hwf : ∀ d, ∀ f ∈ frames d, ∃ h, WellFormedFrame pb d.type f h) (s : State δ α) (e : Event)
    (hI : Inv pb frames s) (hG : Apart pb frames s e) : Inv pb frames (step pb handle s e) := by
  simp only [step, hI.ok, Bool.false_eq_true, if_false]
  cases e with
  | downstreamData data => exact inv_downstream hwf hI hG.delivered hG.notMidOther
  | upstreamData conn data endStream =>
    exact inv_upstream hwf hI hG.delivered hG.notMidOther hG.nothingAfterClear

/-- A connection as it starts, with any streams attached. -/
def start (w : δ) (streams : ConnId → Option Stream) : State δ α := { world := w, streams := streams }

theorem inv_start (hwf : ∀ d, ∀ f ∈ frames d, ∃ h, WellFormedFrame pb d.type f h) (w : δ)
    (streams : ConnId → Option Stream) : Inv pb frames (start w streams : State δ α) := by
  refine ⟨rfl, fun _ => List.nil_prefix, fun d => ?_,
    fun d => by simp [start, residue], fun _ => rfl, fun d h => by cases h⟩
  have hne : ∀ f ∈ frames d, f ≠ [] := fun f hf => by
    obtain ⟨h, hf⟩ := hwf d f hf
    exact (isFrame (α := α) hf).ne
  simp [start, arrived_nil hne]

theorem decodedAlone_eq {d : Dir} (hwf : ∀ f ∈ frames d, ∃ h, WellFormedFrame pb d.type f h) {r : Bytes}
    (hr : r <+: (frames d).flatten) :
    decodedAlone α pb d.type r = (arrived (frames d) r).map (frameMetadata α pb d.type) := by
  have hfs : ∀ f ∈ frames d, IsFrame ((trpcCodec α pb).decodeAs d.type) (Resumes pb d.type) f
      (frameMetadata α pb d.type f) := fun f hf => by
    obtain ⟨h, hf⟩ := hwf f hf
    exact isFrame hf
  exact drain_arrived hfs hr (resumes_boundary rfl [])

/-- **Streams stay apart.** However the chunks of a connection and its streams interleave: if no
chunk is decoded while the codec is inside a frame of another byte stream, and no byte follows
the frame that clears a stream, every byte stream yields exactly its own frames, in every state
of the run. -/
theorem own_frames (pb : Protobuf) (handle : Handler δ α) (frames : Dir → List Bytes)
    (hwf : ∀ d, ∀ f ∈ frames d, ∃ h, WellFormedFrame pb d.type f h) (w : δ) (streams : ConnId → Option Stream)
    (es : List Event) (h : Guarded (step pb handle) (Apart pb frames) (start w streams) es) (n : Nat) :
    OwnFrames pb frames (run (step pb handle) (start w streams) (es.take n)) := by
  have hI := h.invariant_take (inv_step hwf) (inv_start hwf w streams) n
  refine ⟨hI.ok, hI.decoded, fun d hall => ?_, fun d => ?_⟩
  · rw [hI.decoded d, hall, arrived_flatten]
  · rw [hI.decoded d, decodedAlone_eq (hwf d) (hI.own d)]

section Concrete

def clientFrame : Bytes := [0x09, 0x30, 1, 2, 0, 0, 0, 17, 0, 0, 0, 0, 0, 7, 0, 0, 0xaa]

def serverFrame : Bytes := [0x09, 0x30, 1, 2, 0, 0, 0, 18, 0, 0, 0, 0, 0, 7, 0, 0, 0xbb, 0xcc]

/-- The client sends one frame, the upstream connection 5 another. -/
def twoFrames : Dir → List Bytes
  | .downstream => [clientFrame]
  | .upstream conn => if conn = 5 then [serverFrame] else []

/-- One active stream, attached to connection 5. -/
def oneStream (conn : ConnId) : Option Stream := if conn = 5 then some { upstreamConn := some 5 } else none

def ignore : Handler Unit Unit := fun _ w => w

theorem twoFrames_wellFormed : ∀ d, ∀ f ∈ twoFrames d, ∃ h, WellFormedFrame wireProtobuf d.type f h := by
  have hclient : WellFormedFrame wireProtobuf .request clientFrame
      { dataFrameType := 1, streamFrameType := .data, dataFrameSize := 17, streamId := 7 } :=
    ⟨by decide, by decide, by decide, by decide⟩
  have hserver : WellFormedFrame wireProtobuf .response serverFrame
      { dataFrameType := 1, streamFrameType := .data, dataFrameSize := 18, streamId := 7 } :=
    ⟨by decide, by decide, by decide, by decide⟩
  rintro (_ | conn) f hf
  · obtain rfl : f = clientFrame := by simpa [twoFrames] using hf
    exact ⟨_, hclient⟩
  · simp only [twoFrames] at hf
    split at hf
    · obtain rfl : f = serverFrame := by simpa using hf
      exact ⟨_, hserver⟩
    · cases hf

/-- The client's frame in two pieces, then the server's in two pieces. -/
def pieces : List Event :=
  [.downstreamData (clientFrame.take 16), .downstreamData (clientFrame.drop 16),
    .upstreamData 5 (serverFrame.take 3) false, .upstreamData 5 (serverFrame.drop 3) false]

theorem own_frames_pieces : OwnFrames wireProtobuf twoFrames
    (run (step wireProtobuf ignore) (start () oneStream) (pieces.take 4)) := by
  refine own_frames wireProtobuf ignore twoFrames twoFrames_wellFormed () oneStream pieces ?_ 4
  refine ⟨⟨⟨by decide, by decide, by trivial⟩, .inl (by decide), by trivial⟩,
    ⟨⟨by decide, by decide, by trivial⟩, .inr (by decide), by trivial⟩,
    ⟨⟨by decide, by decide, by decide⟩, .inl (by decide), ?_⟩,
    ⟨⟨by decide, by decide, by decide⟩, .inl (by decide), ?_⟩, trivial⟩
  · unfold NothingAfterClear; decide
  · unfold NothingAfterClear; decide

/-- The header of the client's frame, then all of the server's frame. -/
def headerThenServer : List Event :=
  [.downstreamData (clientFrame.take 16), .upstreamData 5 serverFrame false]

/-- The codec has read the client's header and resumes with it on the server's bytes: the server's
frame is cut after 17 bytes. -/
theorem downstream_header_claims_upstream_frame :
    (∀ d, ∀ f ∈ twoFrames d, ∃ h, WellFormedFrame wireProtobuf d.type f h) ∧
    Guarded (step wireProtobuf ignore) (Delivered twoFrames) (start () oneStream) headerThenServer ∧
      ¬ OwnFrames wireProtobuf twoFrames
        (run (step wireProtobuf ignore) (start () oneStream) headerThenServer) := by
  refine ⟨twoFrames_wellFormed,
    ⟨⟨by decide, by decide, by trivial⟩, ⟨by decide, by decide, by decide⟩, trivial⟩, fun h => ?_⟩
  have hown := h.own (.upstream 5)
  revert hown
  decide

end Concrete

end MetaProtocolProxy.Trpc.SharedCodec
