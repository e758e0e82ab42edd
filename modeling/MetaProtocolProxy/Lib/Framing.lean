import Mathlib.Data.List.Basic
import Mathlib.Data.List.Infix
/-
# Resumable decoders over a byte stream cut into chunks

A decoder is a function from its own state and the unread input to a `Step`: it waits,
it delivers one message, or it fails; each time it says what is left unread. Nothing is
assumed about where a waiting decoder keeps the part of the frame it has seen: it may
leave it in the input or have taken it into its state. A *resumption relation* `R p s buf`
says that the decoder in state `s` with `buf` unread has seen exactly `p` of a frame.

* `IsFrame` — `f` is one frame carrying `m`: the decoder waits on every proper prefix,
  however it is cut, and delivers `m` as soon as all of `f` is there, leaving exactly
  what follows.
* `drain` — the loop `while data is left: decode`, as a proxy runs it on every chunk.
* `drain_frames` — having seen `p`, the loop on a chunk delivers exactly the frames the
  chunk completes and has then seen the piece of the next one.
* `Contents` — what a buffer holds for a decoder that may be in the middle of a frame.
* `framesIn` — how many frames of a stream lie wholly within its first `n` symbols.
-/
namespace Framing

variable {σ β μ ε : Type}

/-- What one call of a decoder does: the new state and the input left unread. -/
inductive Step (σ β μ ε : Type)
  | wait (s : σ) (rest : List β)
  | done (s : σ) (m : μ) (rest : List β)
  | fail (s : σ) (rest : List β) (e : ε)

/-- `f` is one frame and carries the message `m`, for a decoder resumed along `R`. -/
structure IsFrame (dec : σ → List β → Step σ β μ ε) (R : List β → σ → List β → Prop) (f : List β) (m : μ) :
    Prop where
  ne : f ≠ []
  waits : ∀ {p : List β} {s : σ} {buf c : List β}, R p s buf → p ++ c <+: f → p ++ c ≠ f →
    ∃ s' buf', dec s (buf ++ c) = .wait s' buf' ∧ R (p ++ c) s' buf'
  done : ∀ {p : List β} {s : σ} {buf c rest : List β}, R p s buf → p <+: f → p ≠ f → p ++ c = f ++ rest →
    ∃ s', dec s (buf ++ c) = .done s' m rest ∧ R [] s' []

/-- Why the loop over a chunk stopped. -/
inductive Stop (ε : Type)
  | underflow
  | failed (e : ε)
  | fuel
  deriving DecidableEq, Repr

structure Drained (σ β μ ε : Type) where
  state : σ
  rest : List β
  out : List μ
  stop : Stop ε

/-- Decode until the input is empty or the decoder waits or fails. -/
def drain (dec : σ → List β → Step σ β μ ε) : Nat → σ → List β → Drained σ β μ ε
  | 0, s, buf => ⟨s, buf, [], .fuel⟩
  | n + 1, s, buf =>
    if buf.isEmpty then ⟨s, [], [], .underflow⟩
    else match dec s buf with
      | .wait s' rest => ⟨s', rest, [], .underflow⟩
      | .fail s' rest e => ⟨s', rest, [], .failed e⟩
      | .done s' m rest => { drain dec n s' rest with out := m :: (drain dec n s' rest).out }

/-- Frames wholly contained in the first `n` symbols of the stream. -/
def framesIn : List (List β) → Nat → Nat
  | [], _ => 0
  | f :: fs, n => if f.length ≤ n then framesIn fs (n - f.length) + 1 else 0

section Frames

variable {dec : σ → List β → Step σ β μ ε} {R : List β → σ → List β → Prop}

/-- Between two chunks of a frame the loop makes one call, which waits. -/
theorem drain_wait {n : Nat} {s s' : σ} {buf rest : List β} (hne : buf ≠ []) (h : dec s buf = .wait s' rest) :
    drain dec (n + 1) s buf = ⟨s', rest, [], .underflow⟩ := by
  simp [drain, hne, h]

theorem drain_nil {n : Nat} {s : σ} : drain dec (n + 1) s [] = ⟨s, [], [], .underflow⟩ := by
  simp [drain]

theorem drain_done {n : Nat} {s s' : σ} {m : μ} {buf rest : List β} (hne : buf ≠ [])
    (h : dec s buf = .done s' m rest) :
    drain dec (n + 1) s buf =
      { drain dec n s' rest with out := m :: (drain dec n s' rest).out } := by
  simp [drain, hne, h]

/-- What the loop returns begins with the message of its first call. -/
theorem drain_done_inv {n : Nat} {s s₁ s' : σ} {m : μ} {ms : List μ} {buf rest₁ rest : List β}
    {stop : Stop ε} (hne : buf ≠ [])
    (hd : dec s buf = .done s₁ m rest₁) (h : drain dec (n + 1) s buf = ⟨s', rest, ms, stop⟩) :
    ∃ ms', ms = m :: ms' ∧ drain dec n s₁ rest₁ = ⟨s', rest, ms', stop⟩ := by
  rw [drain_done hne hd] at h
  obtain ⟨rfl, rfl, rfl, rfl⟩ := Drained.mk.inj h
  exact ⟨_, rfl, rfl⟩

/-- A piece `q` of a frame still to be completed: empty, or a proper prefix of it. -/
def Piece (dec : σ → List β → Step σ β μ ε) (R : List β → σ → List β → Prop) (q : List β) : Prop :=
  q = [] ∨ ∃ g m, IsFrame dec R g m ∧ q <+: g ∧ q ≠ g

/-- The loop on whole frames, from a decoder between frames (`I`): their messages in order, then
what it does with the rest. -/
theorem drain_flatten {I : σ → Prop} {fs : List (List β × μ)}
    (hdone : ∀ f ∈ fs, f.1 ≠ [] ∧ ∀ s rest, I s → ∃ s', dec s (f.1 ++ rest) = .done s' f.2 rest ∧ I s')
    {s : σ} (hs : I s) (q : List β) (n : Nat) :
    ∃ s', I s' ∧ drain dec (fs.length + n) s ((fs.map Prod.fst).flatten ++ q) =
      { drain dec n s' q with out := fs.map Prod.snd ++ (drain dec n s' q).out } := by
  induction fs generalizing s with
  | nil => exact ⟨s, hs, by simp⟩
  | cons f fs ih =>
    obtain ⟨hne, hf⟩ := hdone f (by simp)
    obtain ⟨s₁, hd, hs₁⟩ := hf s ((fs.map Prod.fst).flatten ++ q) hs
    obtain ⟨s', hs', hrun⟩ := ih (fun g hg => hdone g (by simp [hg])) hs₁
    refine ⟨s', hs', ?_⟩
    have hbuf : f.1 ++ ((fs.map Prod.fst).flatten ++ q) ≠ [] := by simp [hne]
    simp only [List.map_cons, List.flatten_cons, List.append_assoc, List.length_cons, Nat.succ_add]
    rw [drain_done hbuf hd, hrun]
    rfl

/-- The loop on whole frames followed by a piece of one, from a decoder between frames: the
frames' messages in order, and the decoder has seen the piece. -/
theorem drain_idle {fs : List (List β × μ)} (hfs : ∀ f ∈ fs, IsFrame dec R f.1 f.2) {q : List β}
    (hq : Piece dec R q) {s : σ} (hs : R [] s []) {n : Nat} (hn : fs.length < n) :
    ∃ s' buf', R q s' buf' ∧
      drain dec n s ((fs.map Prod.fst).flatten ++ q) = ⟨s', buf', fs.map Prod.snd, .underflow⟩ := by
  obtain ⟨n, rfl⟩ : ∃ k, n = fs.length + (k + 1) := ⟨n - fs.length - 1, by omega⟩
  have hdone : ∀ f ∈ fs, f.1 ≠ [] ∧
      ∀ s rest, R [] s [] → ∃ s', dec s (f.1 ++ rest) = .done s' f.2 rest ∧ R [] s' [] := by
    intro f hf
    refine ⟨(hfs f hf).ne, fun s rest hs => ?_⟩
    exact (hfs f hf).done hs (c := f.1 ++ rest) List.nil_prefix (fun h => (hfs f hf).ne h.symm) rfl
  obtain ⟨s₁, hs₁, hrun⟩ := drain_flatten hdone hs q (n + 1)
  rw [hrun]
  by_cases hq0 : q = []
  · subst hq0
    exact ⟨s₁, [], hs₁, by simp [drain_nil]⟩
  · obtain ⟨g, m, hg, hpre, hneq⟩ := hq.resolve_left hq0
    obtain ⟨s', buf', hw, hR⟩ := hg.waits hs₁ (c := q) (by simpa using hpre) (by simpa using hneq)
    refine ⟨s', buf', by simpa using hR, ?_⟩
    rw [drain_wait hq0 (by simpa using hw)]
    simp

/-- **One chunk.** `p` of the current frame has been seen; the chunk `c` completes the frames
`fs` and ends with a piece `q` of the next. The loop delivers `fs` and has seen `q`. -/
theorem drain_frames {fs : List (List β × μ)} (hfs : ∀ f ∈ fs, IsFrame dec R f.1 f.2) {p q c : List β}
    (hq : Piece dec R q) (hsplit : p ++ c = (fs.map Prod.fst).flatten ++ q)
    (hp : ∀ f ∈ fs.head?, p <+: f.1 ∧ p ≠ f.1) {s : σ} {buf : List β} (hR : R p s buf)
    (hc : c ≠ []) {n : Nat} (hn : fs.length < n) :
    ∃ s' buf', R q s' buf' ∧ drain dec n s (buf ++ c) = ⟨s', buf', fs.map Prod.snd, .underflow⟩ := by
  obtain ⟨n, rfl⟩ : ∃ k, n = k + 1 := ⟨n - 1, by omega⟩
  have hbuf : buf ++ c ≠ [] := by simp [hc]
  cases fs with
  | nil =>
    simp only [List.map_nil, List.flatten_nil, List.nil_append] at hsplit
    subst hsplit
    obtain ⟨g, m, hg, hpre, hneq⟩ := hq.resolve_left (by simp [hc])
    obtain ⟨s', buf', hw, hR'⟩ := hg.waits hR hpre hneq
    exact ⟨s', buf', hR', drain_wait hbuf hw⟩
  | cons f fs =>
    obtain ⟨hpre, hneq⟩ := hp f (by simp)
    have hf := hfs f (by simp)
    have hall : p ++ c = f.1 ++ ((fs.map Prod.fst).flatten ++ q) := by simpa using hsplit
    obtain ⟨s₁, hd, hs₁⟩ := hf.done hR hpre hneq hall
    have htail : ∀ g ∈ fs, IsFrame dec R g.1 g.2 := fun g hg => hfs g (by simp [hg])
    obtain ⟨s', buf', hR', hrun⟩ := drain_idle htail hq hs₁ (n := n) (by simp at hn; omega)
    refine ⟨s', buf', hR', ?_⟩
    rw [drain_done hbuf hd, hrun]
    rfl

/-- From `s` on, the unread `data` holds the frames `fs`, the first of which may have been seen in
part, and then the piece `q` of another one. -/
structure Contents (dec : σ → List β → Step σ β μ ε) (R : List β → σ → List β → Prop) (s : σ) (data : List β)
    (fs : List (List β × μ)) (q : List β) : Prop where
  frames : ∀ f ∈ fs, IsFrame dec R f.1 f.2
  piece : Piece dec R q
  seen : ∃ p buf c, R p s buf ∧ data = buf ++ c ∧ p ++ c = (fs.map Prod.fst).flatten ++ q ∧
    (∀ f ∈ fs.head?, p <+: f.1 ∧ p ≠ f.1) ∧ (p = [] → buf = [])

theorem Contents.of_idle {fs : List (List β × μ)} (hfs : ∀ f ∈ fs, IsFrame dec R f.1 f.2)
    {q : List β} (hq : Piece dec R q)
    {s : σ} (hs : R [] s []) : Contents dec R s ((fs.map Prod.fst).flatten ++ q) fs q := by
  refine ⟨hfs, hq, [], [], _, hs, rfl, rfl, fun f hf => ⟨List.nil_prefix, fun h => ?_⟩, fun _ => rfl⟩
  exact (hfs f (List.mem_of_mem_head? hf)).ne h.symm

/-- A call on data that holds a frame delivers it and leaves what follows. -/
theorem Contents.done {f : List β × μ} {fs : List (List β × μ)} {q data : List β} {s : σ}
    (h : Contents dec R s data (f :: fs) q) :
    data ≠ [] ∧ ∃ s', dec s data = .done s' f.2 ((fs.map Prod.fst).flatten ++ q) ∧
      Contents dec R s' ((fs.map Prod.fst).flatten ++ q) fs q := by
  obtain ⟨p, buf, c, hR, rfl, hsplit, hhead, -⟩ := h.seen
  obtain ⟨hpre, hneq⟩ := hhead f rfl
  rw [List.map_cons, List.flatten_cons, List.append_assoc] at hsplit
  have hc : c ≠ [] := by
    rintro rfl
    rw [List.append_nil] at hsplit
    exact hneq (hpre.eq_of_length_le (by simp [hsplit]))
  obtain ⟨s', hd, hs'⟩ := (h.frames f List.mem_cons_self).done hR hpre hneq hsplit
  exact ⟨by simp [hc], s', hd, .of_idle (fun g hg => h.frames g (List.mem_cons_of_mem f hg)) h.piece hs'⟩

/-- A call on data that holds no frame waits. -/
theorem Contents.waits {q data : List β} {s : σ} (h : Contents dec R s data [] q) (hne : data ≠ []) :
    ∃ s' rest, dec s data = .wait s' rest := by
  obtain ⟨p, buf, c, hR, rfl, hsplit, -, hidle⟩ := h.seen
  simp only [List.map_nil, List.flatten_nil, List.nil_append] at hsplit
  rcases h.piece with rfl | ⟨g, m, hg, hpre, hneq⟩
  · obtain ⟨rfl, rfl⟩ := List.append_eq_nil_iff.1 hsplit
    exact absurd (by rw [hidle rfl, List.append_nil]) hne
  · rw [← hsplit] at hpre hneq
    obtain ⟨s', buf', hw, -⟩ := hg.waits hR hpre hneq
    exact ⟨s', buf', hw⟩

end Frames

/-! ## Which frames have arrived -/

theorem framesIn_mono (fs : List (List β)) {m n : Nat} (h : m ≤ n) : framesIn fs m ≤ framesIn fs n := by
  induction fs generalizing m n with
  | nil => simp [framesIn]
  | cons f fs ih =>
    simp only [framesIn]
    split <;> split
    · simpa using ih (by omega)
    · omega
    · omega
    · omega

/-- What has arrived of a stream of frames: the frames counted by `framesIn`, then a piece
of the next one. -/
theorem framesIn_split {fs : List (List β)} (hne : ∀ f ∈ fs, f ≠ []) {r : List β} (h : r <+: fs.flatten) :
    ∃ q, r = (fs.take (framesIn fs r.length)).flatten ++ q ∧
      (q = [] ∨ ∃ f, fs[framesIn fs r.length]? = some f ∧ q <+: f ∧ q ≠ f) := by
  induction fs generalizing r with
  | nil =>
    obtain rfl : r = [] := by simpa using h
    exact ⟨[], by simp, .inl rfl⟩
  | cons f fs ih =>
    simp only [List.flatten_cons] at h
    by_cases hlen : f.length ≤ r.length
    · -- the first frame is there; the rest of `r` is a prefix of the other frames
      obtain ⟨r', rfl⟩ : f <+: r := List.prefix_of_prefix_length_le (List.prefix_append _ _) h hlen
      have hr' : r' <+: fs.flatten := (List.prefix_append_right_inj f).1 h
      obtain ⟨q, hq, hcase⟩ := ih (fun g hg => hne g (by simp [hg])) hr'
      have hcount : framesIn (f :: fs) (f ++ r').length = framesIn fs r'.length + 1 := by
        simp [framesIn]
      refine ⟨q, ?_, ?_⟩
      · rw [hcount, List.take_succ_cons, List.flatten_cons, List.append_assoc, ← hq]
      · rw [hcount]
        simpa using hcase
    · have hpre : r <+: f := List.prefix_of_prefix_length_le h (List.prefix_append _ _) (by omega)
      have hcount : framesIn (f :: fs) r.length = 0 := by simp [framesIn, hlen]
      refine ⟨r, by simp [hcount], .inr ⟨f, by simp [hcount], hpre, ?_⟩⟩
      rintro rfl
      exact hlen le_rfl

/-- The frames of `fs` that have arrived with `r`. -/
def arrived (fs : List (List β)) (r : List β) : List (List β) := fs.take (framesIn fs r.length)

/-- The piece of the next frame that has arrived with `r`. -/
def residue (fs : List (List β)) (r : List β) : List β := r.drop (arrived fs r).flatten.length

/-- The frames completed by the chunk `c` after `r`. -/
def completed (fs : List (List β)) (r c : List β) : List (List β) :=
  (arrived fs (r ++ c)).drop (framesIn fs r.length)

theorem arrived_append (fs : List (List β)) (r c : List β) :
    arrived fs (r ++ c) = arrived fs r ++ completed fs r c := by
  have hle : framesIn fs r.length ≤ framesIn fs (r ++ c).length := framesIn_mono fs (by simp)
  have htake : (arrived fs (r ++ c)).take (framesIn fs r.length) = arrived fs r := by
    rw [arrived, List.take_take, Nat.min_eq_left hle, arrived]
  rw [← htake, completed, List.take_append_drop]

section Stream

variable {fs : List (List β)} {r c : List β}

theorem arrived_residue (hne : ∀ f ∈ fs, f ≠ []) (h : r <+: fs.flatten) :
    r = (arrived fs r).flatten ++ residue fs r ∧
      (residue fs r = [] ∨ ∃ f, fs[framesIn fs r.length]? = some f ∧ residue fs r <+: f ∧
        residue fs r ≠ f) := by
  obtain ⟨q, hq, hcase⟩ := framesIn_split hne h
  have hres : residue fs r = q := by
    have hdrop : r.drop (arrived fs r).flatten.length =
      ((arrived fs r).flatten ++ q).drop (arrived fs r).flatten.length :=
      congrArg _ hq
    rw [residue, hdrop, List.drop_left]
  rw [hres]
  exact ⟨hq, hcase⟩

theorem arrived_nil (hne : ∀ f ∈ fs, f ≠ []) : arrived fs [] = [] := by
  cases fs with
  | nil => rfl
  | cons f fs =>
    have hf : f ≠ [] := hne f (by simp)
    simp [arrived, framesIn, hf]

/-- Once everything is there, every frame has arrived. -/
theorem arrived_flatten (fs : List (List β)) : arrived fs fs.flatten = fs := by
  have hcount : ∀ fs : List (List β), framesIn fs fs.flatten.length = fs.length := by
    intro fs
    induction fs with
    | nil => rfl
    | cons f fs ih =>
      have hsub : (f ++ fs.flatten).length - f.length = fs.flatten.length := by simp
      simp only [framesIn, List.flatten_cons, hsub, ih]
      simp
  rw [arrived, hcount, List.take_length]

theorem completed_split (hne : ∀ f ∈ fs, f ≠ []) (h : r ++ c <+: fs.flatten) :
    residue fs r ++ c = (completed fs r c).flatten ++ residue fs (r ++ c) := by
  have hr := (arrived_residue hne ((List.prefix_append r c).trans h)).1
  have hrc := (arrived_residue hne h).1
  rw [arrived_append, List.flatten_append, List.append_assoc] at hrc
  have : (arrived fs r).flatten ++ (residue fs r ++ c) =
      (arrived fs r).flatten ++ ((completed fs r c).flatten ++ residue fs (r ++ c)) := by
    rw [← List.append_assoc, ← hr, ← hrc]
  exact List.append_cancel_left this

/-- The piece seen before a chunk belongs to the first frame the chunk completes. -/
theorem head_completed (hne : ∀ f ∈ fs, f ≠ []) (h : r ++ c <+: fs.flatten) :
    ∀ f ∈ (completed fs r c).head?, residue fs r <+: f ∧ residue fs r ≠ f := by
  intro f hf
  have hget : fs[framesIn fs r.length]? = some f := by
    rw [completed, arrived, List.head?_drop, Option.mem_def, List.getElem?_take] at hf
    split at hf
    · exact hf
    · cases hf
  have hmem : f ∈ fs := List.mem_of_getElem? hget
  rcases (arrived_residue hne ((List.prefix_append r c).trans h)).2 with h0 | ⟨g, hg, hpre, hneq⟩
  · rw [h0]
    exact ⟨List.nil_prefix, fun h' => hne f hmem h'.symm⟩
  · obtain rfl : g = f := Option.some.inj (hg.symm.trans hget)
    exact ⟨hpre, hneq⟩

theorem length_le_flatten {fs : List (List β)} (hne : ∀ f ∈ fs, f ≠ []) : fs.length ≤ fs.flatten.length := by
  induction fs with
  | nil => simp
  | cons f fs ih =>
    have hf : 0 < f.length := List.length_pos_iff.2 (hne f (by simp))
    have := ih fun g hg => hne g (by simp [hg])
    simp only [List.length_cons, List.flatten_cons, List.length_append]
    omega

theorem mem_of_mem_completed {f : List β} (hf : f ∈ completed fs r c) : f ∈ fs :=
  List.mem_of_mem_take (List.mem_of_mem_drop hf)

/-- A chunk completes at most one frame per symbol: the first frame takes one symbol of it
at least, and so does every other. -/
theorem length_completed_le (hne : ∀ f ∈ fs, f ≠ []) (h : r ++ c <+: fs.flatten) :
    (completed fs r c).length ≤ c.length := by
  have hsplit := congrArg List.length (completed_split hne h)
  have hhead := head_completed hne h
  cases hcs : completed fs r c with
  | nil => simp
  | cons f gs =>
    rw [hcs] at hsplit hhead
    obtain ⟨hpre, hneq⟩ := hhead f rfl
    have hlt : (residue fs r).length < f.length :=
      lt_of_le_of_ne hpre.length_le fun hl => hneq (hpre.eq_of_length hl)
    have hmem : ∀ g ∈ gs, g ≠ [] := fun g hg =>
      hne g (mem_of_mem_completed (by rw [hcs]; exact List.mem_cons_of_mem f hg))
    have hgs := length_le_flatten hmem
    simp only [List.length_append, List.flatten_cons, List.length_cons] at hsplit ⊢
    omega

variable {dec : σ → List β → Step σ β μ ε} {R : List β → σ → List β → Prop} {msg : List β → μ}

/-- **The loop on one chunk of a stream of frames** delivers the messages of the frames the
chunk completes, and has then seen what is left of the stream. -/
theorem drain_chunk (hfs : ∀ f ∈ fs, IsFrame dec R f (msg f)) (h : r ++ c <+: fs.flatten) {s : σ}
    {buf : List β}
    (hR : R (residue fs r) s buf) (hc : c ≠ []) {n : Nat} (hn : (completed fs r c).length < n) :
    ∃ s' buf', R (residue fs (r ++ c)) s' buf' ∧
      drain dec n s (buf ++ c) = ⟨s', buf', (completed fs r c).map msg, .underflow⟩ := by
  have hne : ∀ f ∈ fs, f ≠ [] := fun f hf => (hfs f hf).ne
  -- the frames paired with their messages
  let pairs := (completed fs r c).map fun f => (f, msg f)
  have hfst : pairs.map Prod.fst = completed fs r c := by simp [pairs, Function.comp_def]
  have hsnd : pairs.map Prod.snd = (completed fs r c).map msg := by simp [pairs, Function.comp_def]
  have hpairs : ∀ f ∈ pairs, IsFrame dec R f.1 f.2 := by
    intro f hf
    obtain ⟨g, hg, rfl⟩ := List.mem_map.1 hf
    exact hfs g (mem_of_mem_completed hg)
  have hpiece : Piece dec R (residue fs (r ++ c)) := by
    rcases (arrived_residue hne h).2 with h0 | ⟨g, hg, hpre, hneq⟩
    · exact .inl h0
    · exact .inr ⟨g, msg g, hfs g (List.mem_of_getElem? hg), hpre, hneq⟩
  have hsplit : residue fs r ++ c = (pairs.map Prod.fst).flatten ++ residue fs (r ++ c) := by
    rw [hfst]
    exact completed_split hne h
  have hhead : ∀ f ∈ pairs.head?, residue fs r <+: f.1 ∧ residue fs r ≠ f.1 := by
    intro f hf
    simp only [pairs, List.head?_map, Option.mem_def, Option.map_eq_some_iff] at hf
    obtain ⟨g, hg, rfl⟩ := hf
    exact head_completed hne h g hg
  obtain ⟨s', buf', hR', hrun⟩ :=
    drain_frames hpairs hpiece hsplit hhead hR hc (n := n) (by simpa [pairs] using hn)
  exact ⟨s', buf', hR', by rw [hrun, hsnd]⟩

/-- The same for a chunk that may be empty: between two frames nothing is unread, within one the
decoder waits. -/
theorem drain_received (hfs : ∀ f ∈ fs, IsFrame dec R f (msg f)) (hempty : ∀ {s buf}, R [] s buf → buf = [])
    (h : r ++ c <+: fs.flatten) {s : σ} {buf : List β} (hR : R (residue fs r) s buf)
    (hne : buf ++ c ≠ []) {n : Nat} (hn : (completed fs r c).length < n) :
    ∃ s' buf', R (residue fs (r ++ c)) s' buf' ∧
      drain dec n s (buf ++ c) = ⟨s', buf', (completed fs r c).map msg, .underflow⟩ := by
  by_cases hc : c = []
  · subst hc
    have hnone : completed fs r [] = [] := by
      have hsame := arrived_append fs r []
      rw [List.append_nil] at hsame
      exact List.append_cancel_left (hsame.symm.trans (List.append_nil _).symm)
    obtain ⟨n, rfl⟩ : ∃ k, n = k + 1 := ⟨n - 1, by omega⟩
    rw [List.append_nil] at hne h
    have hres : residue fs r ≠ [] := fun h0 => hne (hempty (h0 ▸ hR))
    obtain ⟨g, hg, hpre, hneq⟩ := (arrived_residue (fun f hf => (hfs f hf).ne) h).2.resolve_left hres
    obtain ⟨s', buf', hw, hR'⟩ :=
      (hfs g (List.mem_of_getElem? hg)).waits (c := []) hR (by simpa using hpre) (by simpa using hneq)
    rw [List.append_nil] at hw hR'
    refine ⟨s', buf', by rwa [List.append_nil], ?_⟩
    rw [hnone, List.append_nil, drain_wait hne hw]
    rfl
  · exact drain_chunk hfs h hR hc hn

/-- **One call on one chunk of a stream of frames.** The decoder has seen `p` of what is left of the
stream and `q` is unread. It waits if the chunk completes no frame; else it delivers the first frame
the chunk completes and leaves the others and the piece after them. -/
theorem decode_chunk (hfs : ∀ f ∈ fs, IsFrame dec R f (msg f)) (h : r ++ c <+: fs.flatten) {s : σ}
    {p q buf : List β} (hR : R p s buf) (hpq : p ++ q = residue fs r) (hc : c ≠ []) :
    (completed fs r c = [] ∧ ∃ s' buf', dec s (buf ++ q ++ c) = .wait s' buf' ∧
      R (residue fs (r ++ c)) s' buf') ∨
      ∃ f gs s', completed fs r c = f :: gs ∧
        dec s (buf ++ q ++ c) = .done s' (msg f) (gs.flatten ++ residue fs (r ++ c)) ∧ R [] s' [] := by
  have hne : ∀ f ∈ fs, f ≠ [] := fun f hf => (hfs f hf).ne
  have hsplit := completed_split hne h
  rw [← hpq, List.append_assoc] at hsplit
  rw [List.append_assoc]
  cases hcs : completed fs r c with
  | nil =>
    rw [hcs, List.flatten_nil, List.nil_append] at hsplit
    have hres : residue fs (r ++ c) ≠ [] := by
      rw [← hsplit]
      simp [hc]
    obtain ⟨g, hg, hpre, hneq⟩ := (arrived_residue hne h).2.resolve_left hres
    rw [← hsplit] at hpre hneq
    obtain ⟨s', buf', hw, hR'⟩ := (hfs g (List.mem_of_getElem? hg)).waits hR hpre hneq
    exact .inl ⟨rfl, s', buf', hw, hsplit ▸ hR'⟩
  | cons f gs =>
    have hf : f ∈ fs := mem_of_mem_completed (by rw [hcs]; exact List.mem_cons_self)
    obtain ⟨hpre, hneq⟩ := head_completed hne h f (by rw [hcs]; rfl)
    rw [← hpq] at hpre hneq
    have hp : p <+: f := (List.prefix_append p q).trans hpre
    have hpf : p ≠ f := by
      rintro rfl
      exact hneq (hpre.eq_of_length_le (by simp))
    rw [hcs, List.flatten_cons, List.append_assoc] at hsplit
    obtain ⟨s', hd, hs'⟩ := (hfs f hf).done hR hp hpf hsplit
    exact .inr ⟨f, gs, s', rfl, hd, hs'⟩

/-- From a fresh decoder, all bytes in one go: the messages of the frames that have arrived. -/
theorem drain_arrived (hfs : ∀ f ∈ fs, IsFrame dec R f (msg f)) (h : r <+: fs.flatten) {s : σ}
    (hs : R [] s []) : (drain dec (r.length + 1) s r).out = (arrived fs r).map msg := by
  have hne : ∀ f ∈ fs, f ≠ [] := fun f hf => (hfs f hf).ne
  by_cases hr : r = []
  · subst hr
    simp [drain_nil, arrived_nil hne]
  · have hcompleted : completed fs [] r = arrived fs r := by
      have := arrived_append fs [] r
      rwa [arrived_nil hne, List.nil_append, List.nil_append, eq_comm] at this
    have hres : residue fs [] = [] := by simp [residue]
    have hlen := length_completed_le (r := []) hne (by simpa using h)
    have hR : R (residue fs []) s [] := by rwa [hres]
    obtain ⟨s', buf', -, hrun⟩ := drain_chunk (r := []) hfs (by simpa using h) hR hr (Nat.lt_succ_of_le hlen)
    rw [List.nil_append, hcompleted] at hrun
    rw [hrun]

end Stream

end Framing
