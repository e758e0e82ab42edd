import MetaProtocolProxy.Decoder
/-
# A connection's bytes, chunk by chunk (conn_manager.cc:28-43, 94-133)

`ConnectionManager::onData` moves a chunk into `request_buffer_` and calls `dispatch`, which
drives the codec until it waits. What the handlers of the decoded messages do is left open
(`Handlers`), as long as they return; the calls the decoder makes on them are recorded.

`receive_frames`: for a codec whose frames are frames in the sense of `Framing.IsFrame`, the
calls are those of the frames, in order, however the stream of frames is cut into chunks.
-/
namespace MetaProtocolProxy

open Framing

variable {σ α δ : Type}

inductive Call (α : Type)
  | onHeartbeat (md : Metadata α)
  | onMessageDecoded (md : Metadata α)

/-- The call a decoded message leads to. -/
def Call.of (md : Metadata α) : Call α :=
  if md.messageType = .heartbeat then .onHeartbeat md else .onMessageDecoded md

/-- The bytes of the message a call is about. -/
def Call.originMessage : Call α → Bytes
  | .onHeartbeat md => md.originMessage
  | .onMessageDecoded md => md.originMessage

/-- What the connection manager does on a heartbeat and on a message. -/
structure Handlers (δ α : Type) where
  onHeartbeat : Metadata α → δ → δ
  onMessageDecoded : Metadata α → δ → δ

def Handlers.handle (h : Handlers δ α) (md : Metadata α) (w : δ) : δ :=
  if md.messageType = .heartbeat then h.onHeartbeat md w else h.onMessageDecoded md w

/-- The connection manager as the decoder's delegate: `ConnectionManager::onHeartbeat` answers
`false` on all its paths. -/
def Handlers.delegate (h : Handlers δ α) : Delegate (δ × List (Call α)) α where
  onHeartbeat md w := (.ok false, (h.onHeartbeat md w.1, w.2 ++ [.onHeartbeat md]))
  newStream md _ w := (.ok (), (h.onMessageDecoded md w.1, w.2 ++ [.onMessageDecoded md]))

theorem Handlers.delegate_returns (h : Handlers δ α) (md : Metadata α) :
    h.delegate.Returns (fun md w => (h.handle md w.1, w.2 ++ [Call.of md])) md := by
  unfold Delegate.Returns
  split
  · intro w
    simp [Handlers.delegate, Handlers.handle, Call.of, *]
  · intro w
    simp [Handlers.delegate, Handlers.handle, Call.of, *]

/-- `HeartbeatResponse::encode` (heartbeat_response.cc:10-16), with which
`ConnectionManager::onHeartbeat` fills an empty buffer. -/
def HeartbeatResponse.encode (cd : Codec σ α) (md : Metadata α) (buffer : Bytes) : Except Failure Bytes :=
  cd.encode { md with messageType := .heartbeat } [] buffer

/-- The part of a `ConnectionManager` that receives. -/
structure Connection (σ δ α : Type) where
  decoder : DecoderBase := {}
  codec : σ
  world : δ
  calls : List (Call α) := []
  requestBuffer : Bytes := []

namespace Connection

variable (cd : Codec σ α) (t : MessageType) (h : Handlers δ α)

/-- `ConnectionManager::onData` up to the end of `dispatch`; `none` is a loop that did not end
within one iteration per byte. -/
def onData (c : Connection σ δ α) (data : Bytes) : Option (Except Failure (Connection σ δ α)) :=
  let buffer := c.requestBuffer ++ data
  (dispatch cd t h.delegate (buffer.length + 1) c.decoder c.codec (c.world, c.calls) buffer).map fun r =>
    r.result.map fun _ =>
      { decoder := r.decoder, codec := r.codec, world := r.world.1, calls := r.world.2,
        requestBuffer := r.buffer }

/-- `onData` on chunk after chunk, until one throws. -/
def receive (c : Connection σ δ α) : List Bytes → Option (Except Failure (Connection σ δ α))
  | [] => some (.ok c)
  | data :: chunks =>
    match onData cd t h c data with
    | some (.ok c') => receive c' chunks
    | r => r

variable {cd t h} {c : Connection σ δ α} {fs : List Bytes} {msg : Bytes → Metadata α}
  {R : Bytes → σ → Bytes → Prop} {seen data : Bytes}

/-- After `seen` of the stream of frames `fs`: the calls of the frames that have arrived were
made, and the codec has seen the piece of the next one. -/
structure Seen (h : Handlers δ α) (R : Bytes → σ → Bytes → Prop) (fs : List Bytes)
    (msg : Bytes → Metadata α) (w : δ) (seen : Bytes) (c : Connection σ δ α) : Prop where
  resumes : R (residue fs seen) c.codec c.requestBuffer
  calls : c.calls = ((arrived fs seen).map msg).map Call.of
  world : c.world = ((arrived fs seen).map msg).foldl (fun w md => h.handle md w) w

theorem foldl_record (h : Handlers δ α) (ms : List (Metadata α)) (w : δ) (calls : List (Call α)) :
    ms.foldl (fun w md => (h.handle md w.1, w.2 ++ [Call.of md])) (w, calls) =
      (ms.foldl (fun w md => h.handle md w) w, calls ++ ms.map Call.of) := by
  induction ms generalizing w calls with
  | nil => simp
  | cons m ms ih => simp [ih]

/-- `onData` on a buffer that the codec drains. -/
theorem onData_of_drain {s' : σ} {rest : Bytes} {ms : List (Metadata α)} (hne : c.requestBuffer ++ data ≠ [])
    (hdrain : drain (cd.decodeAs t) ((c.requestBuffer ++ data).length + 1) c.codec (c.requestBuffer ++ data) =
      ⟨s', rest, ms, .underflow⟩) :
    ∃ d, c.onData cd t h data = some (.ok
      { decoder := d, codec := s', world := ms.foldl (fun w md => h.handle md w) c.world,
        calls := c.calls ++ ms.map Call.of, requestBuffer := rest }) := by
  obtain ⟨d, hloop⟩ := dispatchLoop_of_drain (d := c.decoder) (w := (c.world, c.calls)) _
    (fun m _ => h.delegate_returns m) hne hdrain
  rw [foldl_record] at hloop
  simp only [Connection.onData, dispatch, List.isEmpty_iff, hne, if_false, hloop, Option.map_some, Except.map]
  exact ⟨d, rfl⟩

/-- An empty chunk: `dispatch` has nothing to do, or the codec waits once more. -/
theorem Seen.onData_nil {w : δ} (hfs : ∀ f ∈ fs, IsFrame (cd.decodeAs t) R f (msg f))
    (hempty : ∀ {s buf}, R [] s buf → buf = []) (hseen : seen <+: fs.flatten)
    (hc : Seen h R fs msg w seen c) :
    ∃ c', c.onData cd t h [] = some (.ok c') ∧ Seen h R fs msg w seen c' := by
  have hne : ∀ f ∈ fs, f ≠ [] := fun f hf => (hfs f hf).ne
  simp only [Connection.onData, List.append_nil]
  by_cases hb : c.requestBuffer = []
  · simp only [dispatch, hb, List.isEmpty_nil, if_true, Option.map_some, Except.map]
    exact ⟨_, rfl, ⟨hb ▸ hc.resumes, hc.calls, hc.world⟩⟩
  · have hres : residue fs seen ≠ [] := fun h0 => hb (hempty (h0 ▸ hc.resumes))
    obtain ⟨g, hg, hpre, hneq⟩ := (arrived_residue hne hseen).2.resolve_left hres
    obtain ⟨s', buf', hw, hR⟩ := (hfs g (List.mem_of_getElem? hg)).waits (c := []) hc.resumes
      (by simpa using hpre) (by simpa using hneq)
    rw [List.append_nil] at hw hR
    simp only [dispatch, List.isEmpty_iff, hb, if_false, dispatchLoop_wait _ hw, Option.map_some, Except.map]
    exact ⟨_, rfl, ⟨hR, hc.calls, hc.world⟩⟩

theorem Seen.onData {w : δ} (hfs : ∀ f ∈ fs, IsFrame (cd.decodeAs t) R f (msg f))
    (hempty : ∀ {s buf}, R [] s buf → buf = []) (hnext : seen ++ data <+: fs.flatten)
    (hc : Seen h R fs msg w seen c) :
    ∃ c', c.onData cd t h data = some (.ok c') ∧ Seen h R fs msg w (seen ++ data) c' := by
  by_cases hd : data = []
  · subst hd
    rw [List.append_nil] at hnext ⊢
    exact hc.onData_nil hfs hempty hnext
  · have hne : c.requestBuffer ++ data ≠ [] := by simp [hd]
    have hfuel : (completed fs seen data).length < (c.requestBuffer ++ data).length + 1 := by
      have := length_completed_le (fun f hf => (hfs f hf).ne) hnext
      rw [List.length_append]
      omega
    obtain ⟨s', buf', hR, hdrain⟩ := drain_chunk hfs hnext hc.resumes hd hfuel
    obtain ⟨d, hdata⟩ := onData_of_drain (h := h) hne hdrain
    refine ⟨_, hdata, ⟨hR, ?_, ?_⟩⟩
    · rw [arrived_append, List.map_append, List.map_append, hc.calls]
    · rw [arrived_append, List.map_append, List.foldl_append, hc.world]

theorem Seen.receive {w : δ} (hfs : ∀ f ∈ fs, IsFrame (cd.decodeAs t) R f (msg f))
    (hempty : ∀ {s buf}, R [] s buf → buf = []) {chunks : List Bytes}
    (hnext : seen ++ chunks.flatten <+: fs.flatten) (hc : Seen h R fs msg w seen c) :
    ∃ c', c.receive cd t h chunks = some (.ok c') ∧ Seen h R fs msg w (seen ++ chunks.flatten) c' := by
  induction chunks generalizing c seen with
  | nil => exact ⟨c, rfl, by simpa using hc⟩
  | cons data chunks ih =>
    rw [List.flatten_cons, ← List.append_assoc] at hnext
    obtain ⟨c₁, hdata, hc₁⟩ := hc.onData hfs hempty ((List.prefix_append _ _).trans hnext)
    obtain ⟨c', hrun, hc'⟩ := ih hnext hc₁
    refine ⟨c', ?_, by simpa using hc'⟩
    rw [Connection.receive, hdata]
    exact hrun

/-- What every call of the codec on unread data leaves holds of the codec and the buffer between
two chunks. -/
theorem receive_invariant {J : σ → Bytes → Prop} {chunks : List Bytes} {c' : Connection σ δ α}
    (hrun : c.receive cd t h chunks = some (.ok c'))
    (hwait : ∀ {s s' : σ} {data rest}, data ≠ [] → cd.decodeAs t s data = .wait s' rest → J s' rest)
    (hdone : ∀ {s s' : σ} {md data rest}, cd.decodeAs t s data = .done s' md rest → J s' rest)
    (hJ : J c.codec c.requestBuffer) : J c'.codec c'.requestBuffer := by
  induction chunks generalizing c with
  | nil =>
    cases hrun
    exact hJ
  | cons data chunks ih =>
    rw [Connection.receive] at hrun
    split at hrun
    · rename_i c₁ hdata
      refine ih hrun ?_
      simp only [Connection.onData, dispatch, Option.map_eq_some_iff] at hdata
      obtain ⟨r, hr, hmap⟩ := hdata
      cases hres : r.result with
      | error e => simp [hres, Except.map] at hmap
      | ok u =>
        simp only [hres, Except.map, Except.ok.injEq] at hmap
        subst hmap
        split at hr
        · rename_i hempty
          have hb : c.requestBuffer ++ data = [] := List.isEmpty_iff.1 hempty
          cases hr
          rw [(List.append_eq_nil_iff.1 hb).1] at hJ
          rwa [hb]
        · rename_i hne
          exact dispatchLoop_invariant _ hwait hdone h.delegate_returns (by simpa using hne) hr hres
    · rename_i hbad
      exact absurd hrun (hbad c')

/-- **However a stream of frames is cut**, the decoder makes the calls of the frames, in order,
and nothing is left unread. -/
theorem receive_frames (h : Handlers δ α) (hfs : ∀ f ∈ fs, IsFrame (cd.decodeAs t) R f (msg f))
    (hempty : ∀ {s buf}, R [] s buf → buf = []) {chunks : List Bytes}
    (hcut : chunks.flatten = fs.flatten) {s : σ} (hs : R [] s []) (w : δ) :
    ∃ c, receive cd t h { codec := s, world := w } chunks = some (.ok c) ∧ c.requestBuffer = [] ∧
      R [] c.codec [] ∧
      c.calls = (fs.map msg).map Call.of ∧ c.world = (fs.map msg).foldl (fun w md => h.handle md w) w := by
  have hne : ∀ f ∈ fs, f ≠ [] := fun f hf => (hfs f hf).ne
  have hres : residue fs [] = [] := by simp [residue]
  have hstart : Seen h R fs msg w [] { codec := s, world := w } :=
    ⟨by rwa [hres], by rw [arrived_nil hne]; rfl, by rw [arrived_nil hne]; rfl⟩
  have hnext : [] ++ chunks.flatten <+: fs.flatten := by simp [hcut]
  obtain ⟨c, hrun, hR, hcalls, hworld⟩ := hstart.receive hfs hempty hnext
  have hend : residue fs fs.flatten = [] := by simp [residue, arrived_flatten]
  rw [List.nil_append, hcut] at hR hcalls hworld
  rw [hend] at hR
  rw [arrived_flatten] at hcalls hworld
  have hbuf := hempty hR
  exact ⟨c, hrun, hbuf, hbuf ▸ hR, hcalls, hworld⟩

end Connection

end MetaProtocolProxy
