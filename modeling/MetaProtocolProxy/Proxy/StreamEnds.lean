import MetaProtocolProxy.Proxy.StreamTable
import MetaProtocolProxy.Trpc.Frames
/-
# How streams end (stream.cc:27-61, stream.h:24-27)

`send2downstream` writes the frames of a buffer one by one and looks after each whether the stream
is over. If so, `clear` drops the connection and destroys the stream, from inside the loop.
`Stream.trace` logs what the loop does with the stream, and goes on after `clear` as the source
does. A frame that ends the stream has to be the last thing in the buffer (`batch_handled_iff`), and
at the end of the upstream connection there has to be just such a frame: without a frame nobody
looks, and the stream stays (`stream_closed_iff`).
-/
namespace MetaProtocolProxy

open Framing (IsFrame Piece Contents)

variable {σ α : Type}

/-! ## What the loop does -/

/-- What the loop of `send2downstream` does with the stream. -/
inductive StreamAction (α : Type)
  | decode
  | write (md : Metadata α) (endStream : Bool)
  /-- `clear`, and whether there was a connection to drop. -/
  | clear (attached : Bool)

/-- The loop of `send2downstream`, as it goes on with a stream that is gone. -/
def Stream.trace (cd : Codec σ α) (endStream : Bool) : Nat → σ → Stream → Bytes → List (StreamAction α)
  | 0, _, _, _ => []
  | fuel + 1, s, st, data =>
    if data.isEmpty then []
    else .decode :: match cd.decodeAs .response s data with
      | .wait _ _ => []
      | .fail _ _ _ => []
      | .done s' md rest =>
        let st := st.onServerMessage md.messageType
        .write md endStream ::
          if endStream || st.serverClosed then
            .clear st.upstreamConn.isSome :: Stream.trace cd endStream fuel s'
              { st with upstreamConn := none } rest
          else Stream.trace cd endStream fuel s' st rest

def StreamAction.written : StreamAction α → Option (Metadata α)
  | .write md _ => some md
  | _ => none

def StreamAction.flag : StreamAction α → Option Bool
  | .write _ endStream => some endStream
  | _ => none

def StreamAction.cleared : StreamAction α → Option Bool
  | .clear attached => some attached
  | _ => none

/-- The messages are written in order, only the last with the end of the stream; the stream is
cleared at most once, while it has a connection, and not used afterwards. -/
structure BatchHandled (ms : List (Metadata α)) (actions : List (StreamAction α)) : Prop where
  written : actions.filterMap StreamAction.written = ms
  ended : ∀ flag ∈ (actions.filterMap StreamAction.flag).dropLast, flag = false
  once : (actions.filterMap StreamAction.cleared).length ≤ 1
  attached : ∀ attached ∈ actions.filterMap StreamAction.cleared, attached = true
  untouched : ∀ before attached after, actions = before ++ .clear attached :: after → after = []

open StreamAction (written cleared)

theorem batchHandled_nil : BatchHandled ([] : List (Metadata α)) [] :=
  ⟨rfl, by simp, by simp, by simp, fun before attached after h => by simp at h⟩

theorem batchHandled_decode : BatchHandled ([] : List (Metadata α)) [.decode] := by
  refine ⟨rfl, by simp [List.filterMap_cons, StreamAction.flag],
    by simp [List.filterMap_cons, cleared], by simp [List.filterMap_cons, cleared], ?_⟩
  intro before attached after h
  rcases before with _ | ⟨a, before⟩ <;> simp at h

theorem batchHandled_write_iff {md : Metadata α} {ms : List (Metadata α)} {actions : List (StreamAction α)} :
    BatchHandled (md :: ms) (.decode :: .write md false :: actions) ↔ BatchHandled ms actions := by
  constructor
  · intro h
    refine ⟨?_, fun flag hflag => ?_, ?_, ?_, fun before attached after heq => ?_⟩
    · simpa [List.filterMap_cons, written] using h.written
    · refine h.ended flag ?_
      simp only [List.filterMap_cons, StreamAction.flag]
      cases hflags : actions.filterMap StreamAction.flag with
      | nil => simp [hflags] at hflag
      | cons b flags =>
        rw [hflags] at hflag
        exact List.mem_cons_of_mem _ hflag
    · simpa [List.filterMap_cons, cleared] using h.once
    · simpa [List.filterMap_cons, cleared] using h.attached
    · exact h.untouched (.decode :: .write md false :: before) attached after (by rw [heq]; rfl)
  · intro h
    refine ⟨?_, fun flag hflag => ?_, ?_, ?_, fun before attached after heq => ?_⟩
    · simpa [List.filterMap_cons, written] using h.written
    · simp only [List.filterMap_cons, StreamAction.flag] at hflag
      cases hflags : actions.filterMap StreamAction.flag with
      | nil => simp [hflags] at hflag
      | cons b flags =>
        rw [hflags, List.dropLast_cons_cons, List.mem_cons] at hflag
        rcases hflag with rfl | hflag
        · rfl
        · exact h.ended flag (by rwa [hflags])
    · simpa [List.filterMap_cons, cleared] using h.once
    · simpa [List.filterMap_cons, cleared] using h.attached
    · -- the stream is not cleared by the first two actions
      rcases before with _ | ⟨_, _ | ⟨_, before⟩⟩
      · simp at heq
      · simp at heq
      · simp only [List.cons_append, List.cons.injEq] at heq
        exact h.untouched before attached after heq.2.2

theorem batchHandled_clear_iff {md : Metadata α} {ms : List (Metadata α)} {endStream : Bool}
    {actions : List (StreamAction α)} :
    BatchHandled (md :: ms) (.decode :: .write md endStream :: .clear true :: actions) ↔
      ms = [] ∧ actions = [] := by
  constructor
  · intro h
    obtain rfl := h.untouched [.decode, .write md endStream] true actions rfl
    refine ⟨?_, rfl⟩
    simpa [List.filterMap_cons, written, eq_comm] using h.written
  · rintro ⟨rfl, rfl⟩
    refine ⟨rfl, by simp [List.filterMap_cons, StreamAction.flag],
      by simp [List.filterMap_cons, cleared], by simp [List.filterMap_cons, cleared], ?_⟩
    intro before attached after heq
    rcases before with _ | ⟨_, _ | ⟨_, _ | ⟨_, before⟩⟩⟩ <;> simp_all

section Batch

variable {cd : Codec σ α} {R : Bytes → σ → Bytes → Prop} {endStream : Bool} {s : σ} {st : Stream}
  {data q : Bytes} {fs : List (Bytes × Metadata α)}

theorem trace_nil (fuel : Nat) : Stream.trace cd endStream fuel s st [] = [] := by
  cases fuel <;> rfl

theorem trace_ne_nil {fuel : Nat} (hne : data ≠ []) :
    Stream.trace cd endStream (fuel + 1) s st data ≠ [] := by
  simp [Stream.trace, hne]

/-- Nothing that is written ends the stream, or nothing is left behind it. -/
def EndsLast (endStream : Bool) (st : Stream) (fs : List (Bytes × Metadata α)) (q : Bytes) : Prop :=
  ∀ before f after, fs = before ++ f :: after → Stream.clears endStream st f.2.messageType = true →
    after = [] ∧ q = []

theorem endsLast_cons_of_clears {f : Bytes × Metadata α}
    (hc : Stream.clears endStream st f.2.messageType = true) :
    EndsLast endStream st (f :: fs) q ↔ fs = [] ∧ q = [] := by
  constructor
  · exact fun h => h [] f fs rfl hc
  · rintro ⟨rfl, rfl⟩ before g after heq -
    have hlength := congrArg List.length heq
    simp only [List.length_cons, List.length_nil, List.length_append] at hlength
    exact ⟨List.eq_nil_of_length_eq_zero (by omega), rfl⟩

theorem endsLast_cons_of_not_clears {f : Bytes × Metadata α}
    (hc : Stream.clears endStream st f.2.messageType = false) :
    EndsLast endStream st (f :: fs) q ↔ EndsLast endStream st fs q := by
  constructor
  · exact fun h before g after heq => h (f :: before) g after (by rw [heq]; rfl)
  · intro h before g after heq hclears
    cases before with
    | nil =>
      obtain ⟨rfl, -⟩ := List.cons.inj heq
      rw [hc] at hclears
      cases hclears
    | cons a before => exact h before g after (List.cons.inj heq).2 hclears

theorem trace_frame (endStream : Bool) (fuel : Nat) {f : Bytes × Metadata α}
    (h : Contents (cd.decodeAs .response) R s data (f :: fs) q)
    (hconn : st.upstreamConn.isSome = true) :
    ∃ s', Contents (cd.decodeAs .response) R s' ((fs.map Prod.fst).flatten ++ q) fs q ∧
      Stream.trace cd endStream (fuel + 1) s st data =
        .decode :: .write f.2 endStream ::
          if Stream.clears endStream st f.2.messageType then
            .clear true :: Stream.trace cd endStream fuel s'
              { st.onServerMessage f.2.messageType with upstreamConn := none }
              ((fs.map Prod.fst).flatten ++ q)
          else Stream.trace cd endStream fuel s' st ((fs.map Prod.fst).flatten ++ q) := by
  obtain ⟨hne, s', hd, hrest⟩ := h.done
  refine ⟨s', hrest, ?_⟩
  have hattached : (st.onServerMessage f.2.messageType).upstreamConn = st.upstreamConn := by
    cases f.2.messageType <;> rfl
  have hstep : Stream.trace cd endStream (fuel + 1) s st data =
      .decode :: .write f.2 endStream ::
        if Stream.clears endStream st f.2.messageType then
          .clear (st.onServerMessage f.2.messageType).upstreamConn.isSome ::
            Stream.trace cd endStream fuel s' { st.onServerMessage f.2.messageType with upstreamConn := none }
              ((fs.map Prod.fst).flatten ++ q)
        else Stream.trace cd endStream fuel s' (st.onServerMessage f.2.messageType)
            ((fs.map Prod.fst).flatten ++ q) := by
    simp only [Stream.trace, List.isEmpty_iff, hne, if_false, hd]
    rfl
  rw [hstep, hattached, hconn]
  cases hc : Stream.clears endStream st f.2.messageType with
  | true => rfl
  | false => rw [Stream.onServerMessage_of_not_clears hc]

/-- For every stream with a connection and every buffer, a batch is handled just when no frame that
ends the stream has anything behind it. -/
theorem batch_handled_iff (h : Contents (cd.decodeAs .response) R s data fs q)
    (hconn : st.upstreamConn.isSome = true) {fuel : Nat} (hfuel : fs.length < fuel) :
    BatchHandled (fs.map Prod.snd) (Stream.trace cd endStream fuel s st data) ↔
      EndsLast endStream st fs q := by
  induction fs generalizing s data fuel with
  | nil =>
    have hends : EndsLast endStream st ([] : List (Bytes × Metadata α)) q :=
      fun before f after heq => by simp at heq
    refine ⟨fun _ => hends, fun _ => ?_⟩
    obtain ⟨fuel, rfl⟩ : ∃ n, fuel = n + 1 := ⟨fuel - 1, by simp at hfuel; omega⟩
    by_cases hne : data = []
    · rw [hne, trace_nil]
      exact batchHandled_nil
    · obtain ⟨s', rest, hwait⟩ := h.waits hne
      have htrace : Stream.trace cd endStream (fuel + 1) s st data = [.decode] := by
        simp [Stream.trace, hne, hwait]
      rw [htrace]
      exact batchHandled_decode
  | cons f fs ih =>
    obtain ⟨fuel, rfl⟩ : ∃ n, fuel = n + 1 := ⟨fuel - 1, by simp at hfuel; omega⟩
    simp only [List.length_cons, Nat.add_lt_add_iff_right] at hfuel
    obtain ⟨s', hrest, htrace⟩ := trace_frame endStream fuel h hconn
    rw [htrace, List.map_cons]
    cases hc : Stream.clears endStream st f.2.messageType with
    | true =>
      rw [if_pos rfl, batchHandled_clear_iff, endsLast_cons_of_clears hc, List.map_eq_nil_iff]
      refine and_congr_right fun hfs => ?_
      subst hfs
      obtain ⟨fuel, rfl⟩ : ∃ n, fuel = n + 1 := ⟨fuel - 1, by simp at hfuel; omega⟩
      constructor
      · intro hnil
        by_contra hq
        exact trace_ne_nil (by simpa using hq) hnil
      · rintro rfl
        exact trace_nil _
    | false =>
      have hend : endStream = false := by
        rw [Stream.clears, Bool.or_eq_false_iff] at hc
        exact hc.1
      subst hend
      rw [if_neg Bool.false_ne_true, batchHandled_write_iff, endsLast_cons_of_not_clears hc]
      exact ih hrest hfuel

/-- Until it uses a stream that is gone, `send2downstream` writes and clears as logged. -/
theorem trace_of_send {fuel : Nat} {r : Stream.Sent σ α}
    (h : Stream.send2downstream cd endStream fuel s st data = some r)
    (hend : r.how ≠ .usedAfterClear) :
    (Stream.trace cd endStream fuel s st data).filterMap written = r.written ∧
      ((Stream.trace cd endStream fuel s st data).filterMap cleared = [] ↔ r.how ≠ .cleared) := by
  induction fuel generalizing s st data r with
  | zero => cases h
  | succ fuel ih =>
    by_cases hne : data = []
    · subst hne
      obtain rfl := Option.some.inj h
      rw [trace_nil]
      exact ⟨rfl, by simp⟩
    simp only [Stream.send2downstream, List.isEmpty_iff, hne, if_false] at h
    simp only [Stream.trace, List.isEmpty_iff, hne, if_false, List.filterMap_cons, written, cleared]
    cases hd : cd.decodeAs .response s data with
    | wait s' rest =>
      rw [hd] at h
      obtain rfl := Option.some.inj h
      simp
    | fail s' rest e =>
      rw [hd] at h
      obtain rfl := Option.some.inj h
      simp
    | done s' md rest =>
      rw [hd] at h
      dsimp only at h ⊢
      split at h
      · next hclears =>
        obtain rfl := Option.some.inj h
        obtain rfl : rest = [] := by simpa using hend
        rw [if_pos hclears, trace_nil]
        simp [List.filterMap_cons, written, cleared]
      · next hclears =>
        obtain ⟨r', hrec, rfl⟩ := Option.map_eq_some_iff.1 h
        obtain ⟨hwritten, hcleared⟩ := ih hrec hend
        rw [if_neg hclears]
        simp only [List.filterMap_cons, written, cleared]
        exact ⟨by rw [hwritten], hcleared⟩

end Batch

/-! ## The end of the upstream connection -/

section Ends

variable {cfg : Config σ α} {cm : ConnectionManager σ α} {R : Bytes → σ → Bytes → Prop} {codec : σ}
  {st : Stream} {data q : Bytes} {fs : List (Bytes × Metadata α)}

theorem getActiveStream_closeStream (cm : ConnectionManager σ α) (streamId : Nat) :
    (cm.closeStream streamId).getActiveStream streamId = none := by
  refine List.lookup_eq_none_iff.2 fun e he => ?_
  have hne : e.1 ≠ streamId := by simpa using (List.mem_filter.1 he).2
  simpa using hne.symm

theorem send_piece {cd : Codec σ α} (h : Contents (cd.decodeAs .response) R codec data [] q)
    (endStream : Bool) (fuel : Nat)
    (st : Stream) : ∃ r, Stream.send2downstream cd endStream (fuel + 1) codec st data = some r ∧
      r.how = .returned := by
  by_cases hne : data = []
  · exact ⟨⟨codec, st, data, [], .returned⟩, by simp [Stream.send2downstream, hne], rfl⟩
  · obtain ⟨s', rest, hwait⟩ := h.waits hne
    exact ⟨⟨s', st, rest, [], .returned⟩, by simp [Stream.send2downstream, hne, hwait], rfl⟩

theorem send_last_frame {cd : Codec σ α} {f : Bytes × Metadata α}
    (h : Contents (cd.decodeAs .response) R codec data (f :: fs) q) (fuel : Nat) (st : Stream) :
    ∃ r, Stream.send2downstream cd true (fuel + 1) codec st data = some r ∧
      r.how = if (fs.map Prod.fst).flatten ++ q = [] then .cleared else .usedAfterClear := by
  obtain ⟨hne, s', hd, -⟩ := h.done
  refine ⟨⟨s', { st.onServerMessage f.2.messageType with upstreamConn := none },
    (fs.map Prod.fst).flatten ++ q, [f.2],
    if ((fs.map Prod.fst).flatten ++ q).isEmpty then .cleared else .usedAfterClear⟩, ?_, ?_⟩
  · simp only [Stream.send2downstream, List.isEmpty_iff, hne, if_false, hd, Bool.true_or, if_true]
  · simp only [List.isEmpty_iff]

/-- For every stream with a connection and every buffer, the end of the upstream connection closes
the stream, and the proxy survives it, just when the buffer holds one frame and nothing else. -/
theorem stream_closed_iff (cfg : Config σ α) {cm : ConnectionManager σ α} (hup : cm.crashed = false)
    {streamId : Nat}
    (hstream : cm.getActiveStream streamId = some st) {c : ConnId} (hconn : st.upstreamConn = some c)
    (h : Contents (cfg.codec.decodeAs .response) R codec data fs q) {fuel : Nat} (hfuel : fs.length < fuel) :
    ((streamUpstreamData cfg cm streamId fuel codec data true).1.crashed = false ∧
        (streamUpstreamData cfg cm streamId fuel codec data true).1.getActiveStream streamId = none) ↔
      fs.length = 1 ∧ q = [] := by
  obtain ⟨fuel, rfl⟩ : ∃ n, fuel = n + 1 := ⟨fuel - 1, by omega⟩
  cases fs with
  | nil =>
    obtain ⟨r, hsend, hhow⟩ := send_piece h true fuel st
    simp only [streamUpstreamData, hstream, hsend, hhow, getActiveStream_setStream, reduceCtorEq,
      and_false, List.length_nil, Nat.zero_ne_one, false_and]
  | cons f fs =>
    obtain ⟨r, hsend, hhow⟩ := send_last_frame h fuel st
    have hempty : (fs.map Prod.fst).flatten ++ q = [] ↔ (f :: fs).length = 1 ∧ q = [] := by
      rw [List.append_eq_nil_iff, List.length_cons, Nat.add_eq_right, List.length_eq_zero_iff]
      refine and_congr_left fun _ => ⟨fun hflat => ?_, fun hnil => by rw [hnil]; rfl⟩
      by_contra hne
      obtain ⟨g, hg⟩ := List.exists_mem_of_ne_nil fs hne
      have hgnil := List.flatten_eq_nil_iff.1 hflat g.1 (List.mem_map_of_mem hg)
      exact (h.frames g (List.mem_cons_of_mem f hg)).ne hgnil
    rw [← hempty]
    by_cases hrest : (fs.map Prod.fst).flatten ++ q = []
    · rw [if_pos hrest] at hhow
      have hcrashed : ((releaseStream cm st).closeStream streamId).crashed = false := by
        simp [ConnectionManager.closeStream, releaseStream, hconn, hup, ConnectionManager.emit]
      simp only [streamUpstreamData, hstream, hsend, hhow, getActiveStream_closeStream, hcrashed,
        hrest, and_self]
    · rw [if_neg hrest] at hhow
      simp only [streamUpstreamData, hstream, hsend, hhow, hrest, iff_false, not_and]
      intro hcrashed
      simp [ConnectionManager.crash] at hcrashed

end Ends

section Concrete

open Trpc

/-- A data frame of stream 1. -/
def serverData : Bytes := [0x09, 0x30, 1, 2, 0, 0, 0, 17, 0, 0, 0, 0, 0, 1, 0, 0, 0xaa]

def framed (f : Bytes) : Bytes × Metadata Unit := (f, frameMetadata Unit wireProtobuf .response f)

theorem serverData_wellFormed : WellFormedFrame wireProtobuf .response serverData
    { dataFrameType := 1, streamFrameType := .data, dataFrameSize := 17, streamId := 1 } :=
  ⟨by decide, by decide, by decide, by decide⟩

theorem serverClose_wellFormed : WellFormedFrame wireProtobuf .response serverClose
    { dataFrameType := 1, streamFrameType := .close, dataFrameSize := 16, streamId := 1 } :=
  ⟨by decide, by decide, by decide, by decide⟩

theorem framed_isFrame {f : Bytes} {h : TrpcFixedHeader} (hf : WellFormedFrame wireProtobuf .response f h) :
    IsFrame (trpcConfig.codec.decodeAs .response) (Resumes wireProtobuf .response) (framed f).1
      (framed f).2 :=
  isFrame hf

theorem dataThenClose_contents :
    Contents (trpcConfig.codec.decodeAs .response) (Resumes wireProtobuf .response) {}
      (serverData ++ serverClose) [framed serverData, framed serverClose] [] := by
  have hframes : ∀ f ∈ [framed serverData, framed serverClose],
      IsFrame (trpcConfig.codec.decodeAs .response) (Resumes wireProtobuf .response) f.1 f.2 := by
    simpa using ⟨framed_isFrame serverData_wellFormed, framed_isFrame serverClose_wellFormed⟩
  exact .of_idle hframes (.inl rfl) (resumes_boundary rfl [])

/-- A data frame and the server's close in one buffer. -/
theorem batch_handled_data_close :
    BatchHandled [(framed serverData).2, (framed serverClose).2]
      (Stream.trace trpcConfig.codec false 3 {} { upstreamConn := some 3 } (serverData ++ serverClose)) := by
  refine (batch_handled_iff dataThenClose_contents rfl (by decide)).2 ?_
  rw [endsLast_cons_of_not_clears (by decide), endsLast_cons_of_clears (by decide)]
  exact ⟨rfl, rfl⟩

/-- The server's close and a data frame in one buffer: the stream is destroyed after the first
frame, and the loop goes on to clear it again, without a connection. -/
theorem close_then_data_mishandled :
    (Stream.trace trpcConfig.codec false 3 {} { upstreamConn := some 3 }
      (serverClose ++ serverData)).filterMap
      cleared = [true, false] ∧
    (Stream.send2downstream trpcConfig.codec false 3 {} { upstreamConn := some 3 }
      (serverClose ++ serverData)).map Stream.Sent.how = some .usedAfterClear ∧
    ¬ BatchHandled [(framed serverClose).2, (framed serverData).2]
      (Stream.trace trpcConfig.codec false 3 {} { upstreamConn := some 3 } (serverClose ++ serverData)) := by
  have hcleared :
      (Stream.trace trpcConfig.codec false 3 {} { upstreamConn := some 3 }
        (serverClose ++ serverData)).filterMap
      cleared = [true, false] := by decide
  refine ⟨hcleared, by decide, fun h => ?_⟩
  have honce := h.once
  rw [hcleared] at honce
  exact absurd honce (by decide)

/-- The last data frame, with the end of the connection. -/
theorem stream_closed_by_last_frame :
    (streamUpstreamData trpcConfig (Runs.run (streamStep trpcConfig) {} (streamExchange.take 2)) 1 2
      {} serverData true).1.crashed =
      false ∧
    (streamUpstreamData trpcConfig (Runs.run (streamStep trpcConfig) {} (streamExchange.take 2)) 1 2
      {} serverData
      true).1.getActiveStream 1 = none := by
  have hframes : ∀ f ∈ [framed serverData],
      IsFrame (trpcConfig.codec.decodeAs .response) (Resumes wireProtobuf .response) f.1 f.2 := by
    simpa using framed_isFrame serverData_wellFormed
  have hcontents :
    Contents (trpcConfig.codec.decodeAs .response) (Resumes wireProtobuf .response) {} serverData
      [framed serverData] [] :=
    .of_idle hframes (.inl rfl) (resumes_boundary rfl [])
  have hstream : (Runs.run (streamStep trpcConfig) {} (streamExchange.take 2)).getActiveStream 1 =
      some { upstreamConn := some 3 } := rfl
  exact (stream_closed_iff trpcConfig rfl hstream rfl hcontents (by decide)).2 ⟨rfl, rfl⟩

/-- The connection of stream 1 ends without another byte, and a client's data message follows. -/
def endThenData : List (StreamEvent TrpcCodec Unit) :=
  streamExchange.take 2 ++ [.upstreamData 1 1 {} [] true, .manager streamData.event]

/-- The stream is still there, and the client's message is written to the connection that has
ended. -/
theorem ended_stream_written :
    Runs.Guarded (streamStep trpcConfig) (StreamEnabled trpcConfig) {} endThenData ∧
    (Runs.run (streamStep trpcConfig) {} (endThenData.take 3)).crashed = false ∧
    (Runs.run (streamStep trpcConfig) {} (endThenData.take 3)).getActiveStream 1 =
      some { upstreamConn := some 3 } ∧
    writesOn 3 (Runs.run (streamStep trpcConfig) {} endThenData).out =
      writesOn 3 (Runs.run (streamStep trpcConfig) {} (endThenData.take 3)).out ++ [[2]] := by
  refine ⟨?_, rfl, rfl, by decide⟩
  exact ⟨⟨rfl, trivial⟩, ⟨rfl, _, rfl, rfl⟩, ⟨rfl, { upstreamConn := some 3 }, rfl, rfl, by decide⟩,
    ⟨rfl, trivial⟩, trivial⟩

end Concrete

end MetaProtocolProxy
