import MetaProtocolProxy.Lib.Framing
/-
# Decoders that are called once per chunk

The loop `drain` takes every frame a chunk completes. A caller that makes one call per chunk takes
one frame at most, and a chunk that completes several leaves the others for the calls to come.

* `feed` — the chunks of one frame, until the decoder has it (`IsFrame.feed`).
* `Pending` — what a decoder that is behind has seen: a piece `p` of the next frame, and unread `q`.
* `poll_chunk` — one call: it waits, or it delivers the next frame, whatever else has arrived.
* `InTime` — no frame is left behind at the last chunk: with every chunk, the frames that have not
  arrived yet are no more than the calls to come.
-/
namespace Framing

variable {σ β μ ε : Type}

/-- One call per chunk, until the decoder does not wait; the chunks behind that stay unread. -/
def feed (dec : σ → List β → Step σ β μ ε) : σ → List β → List (List β) → Step σ β μ ε
  | s, buf, [] => .wait s buf
  | s, buf, c :: cs =>
    match dec s (buf ++ c) with
    | .wait s' rest => feed dec s' rest cs
    | .done s' m rest => .done s' m (rest ++ cs.flatten)
    | .fail s' rest e => .fail s' (rest ++ cs.flatten) e

section Feed

variable {dec : σ → List β → Step σ β μ ε} {R : List β → σ → List β → Prop} {f : List β} {m : μ}

/-- However a frame is cut, the decoder waits for all of it and delivers it. -/
theorem IsFrame.feed (hf : IsFrame dec R f m) {p rest : List β} {s : σ} {buf : List β}
    {cs : List (List β)} (hR : R p s buf)
    (hpre : p <+: f) (hne : p ≠ f) (hcut : p ++ cs.flatten = f ++ rest) :
    ∃ s', feed dec s buf cs = .done s' m rest ∧ R [] s' [] := by
  induction cs generalizing p s buf with
  | nil =>
    rw [List.flatten_nil, List.append_nil] at hcut
    exact absurd (hpre.eq_of_length_le (by rw [hcut]; simp)) hne
  | cons c cs ih =>
    rw [List.flatten_cons, ← List.append_assoc] at hcut
    have hchunk : p ++ c <+: f ++ rest := hcut ▸ List.prefix_append _ _
    rcases List.prefix_or_prefix_of_prefix (List.prefix_append f rest) hchunk with ⟨r, hr⟩ | hpiece
    · -- the chunk completes the frame
      obtain ⟨s', hd, hs'⟩ := hf.done hR hpre hne hr.symm
      have hrest : r ++ cs.flatten = rest := by
        rw [← hr, List.append_assoc] at hcut
        exact List.append_cancel_left hcut
      refine ⟨s', ?_, hs'⟩
      simp only [Framing.feed, hd, hrest]
    · by_cases hall : p ++ c = f
      · have hall' : p ++ c = f ++ [] := by rw [hall, List.append_nil]
        obtain ⟨s', hd, hs'⟩ := hf.done hR hpre hne hall'
        rw [hall] at hcut
        refine ⟨s', ?_, hs'⟩
        simp only [Framing.feed, hd, List.nil_append, List.append_cancel_left hcut]
      · obtain ⟨s', buf', hw, hR'⟩ := hf.waits hR hpiece hall
        obtain ⟨s'', hd, hs''⟩ := ih hR' hpiece hall hcut
        refine ⟨s'', ?_, hs''⟩
        simp only [Framing.feed, hw, hd]

end Feed

/-- The decoder has got the first bytes `got` of the frames `fs` to come: it has seen a piece `p` of
the first frame, and `q` is unread. -/
def Pending (R : List β → σ → List β → Prop) (fs : List (List β)) (got : List β) (s : σ)
    (unread : List β) : Prop :=
  ∃ p q buf, R p s buf ∧ arrived fs p = [] ∧ p ++ q = got ∧ unread = buf ++ q

section Poll

variable {dec : σ → List β → Step σ β μ ε} {R : List β → σ → List β → Prop} {msg : List β → μ}
  {fs : List (List β)} {got c : List β} {s : σ} {unread : List β}

theorem pending_fresh (hne : ∀ f ∈ fs, f ≠ []) (hR : R [] s []) (got : List β) : Pending R fs got s got :=
  ⟨[], got, [], hR, arrived_nil hne, rfl, rfl⟩

theorem arrived_cons_eq_nil {f : List β} : arrived (f :: fs) got = [] ↔ got.length < f.length := by
  by_cases h : f.length ≤ got.length
  · simp [arrived, framesIn, h]
  · simp [arrived, framesIn, h, Nat.lt_of_not_le h]

/-- One call waits if the next frame has not arrived, else it delivers it. -/
theorem poll_chunk (hfs : ∀ f ∈ fs, IsFrame dec R f (msg f)) (hnext : fs ≠ [])
    (hpre : got ++ c <+: fs.flatten) (hP : Pending R fs got s unread) :
    (arrived fs (got ++ c) = [] ∧ ∃ s' rest, dec s (unread ++ c) = .wait s' rest ∧
      Pending R fs (got ++ c) s' rest) ∨
      ∃ f fs', fs = f :: fs' ∧ f <+: got ++ c ∧
        ∃ s' rest, dec s (unread ++ c) = .done s' (msg f) rest ∧
          Pending R fs' ((got ++ c).drop f.length) s' rest := by
  cases fs with
  | nil => exact absurd rfl hnext
  | cons f fs =>
    obtain ⟨p, q, buf, hR, hnone, rfl, rfl⟩ := hP
    have hf := hfs f List.mem_cons_self
    have hp : p.length < f.length := arrived_cons_eq_nil.1 hnone
    have hne : p ≠ f := fun h => by simp [h] at hp
    rw [List.flatten_cons] at hpre
    rw [List.append_assoc] at hpre ⊢
    rw [List.append_assoc]
    by_cases hall : f <+: p ++ (q ++ c)
    · obtain ⟨r, hr⟩ := hall
      have hpf : p <+: f :=
        List.prefix_of_prefix_length_le (hr ▸ List.prefix_append p _) (List.prefix_append f r) hp.le
      obtain ⟨s', hd, hR'⟩ := hf.done hR hpf hne hr.symm
      refine .inr ⟨f, fs, rfl, ⟨r, hr⟩, s', r, hd, ?_⟩
      rw [← hr, List.drop_left]
      exact pending_fresh (fun g hg => (hfs g (List.mem_cons_of_mem f hg)).ne) hR' r
    · have hpiece : p ++ (q ++ c) <+: f :=
        (List.prefix_or_prefix_of_prefix hpre (List.prefix_append f _)).resolve_right hall
      have hshort : p ++ (q ++ c) ≠ f := fun h => hall (by rw [h])
      obtain ⟨s', buf', hw, hR'⟩ := hf.waits hR hpiece hshort
      have hnone' : arrived (f :: fs) (p ++ (q ++ c)) = [] :=
        arrived_cons_eq_nil.2 (lt_of_le_of_ne hpiece.length_le fun h => hshort (hpiece.eq_of_length h))
      exact .inl ⟨hnone', s', buf', hw, _, [], buf', hR', hnone', List.append_nil _,
        (List.append_nil buf').symm⟩

end Poll

/-- With every chunk, the frames that have not arrived are no more than the calls to come. -/
def InTime (fs : List (List β)) (got : List β) (cs : List (List β)) : Prop :=
  fs.length ≤ cs.length ∧
    ∀ i < cs.length, fs.length ≤ framesIn fs (got ++ (cs.take (i + 1)).flatten).length + (cs.length - (i + 1))

section InTime

variable {fs cs : List (List β)} {got c f : List β}

theorem inTime_nil (fs : List (List β)) (got : List β) : InTime fs got [] ↔ fs = [] := by
  simp [InTime]

theorem inTime_of_none (got : List β) (cs : List (List β)) : InTime [] got cs := by
  simp [InTime]

theorem inTime_wait (hnone : arrived fs (got ++ c) = []) : InTime fs got (c :: cs) ↔
    InTime fs (got ++ c) cs := by
  have hnow : fs.length ≤ framesIn fs (got ++ c).length + cs.length ↔ fs.length ≤ cs.length := by
    rcases List.take_eq_nil_iff.1 hnone with hzero | rfl
    · rw [hzero, Nat.zero_add]
    · simp
  constructor
  · rintro ⟨-, hall⟩
    refine ⟨hnow.1 (by simpa using hall 0 (by simp)), fun i hi => ?_⟩
    have hlater := hall (i + 1) (by simpa using hi)
    simpa [List.append_assoc] using hlater
  · rintro ⟨hlen, hall⟩
    refine ⟨Nat.le_succ_of_le hlen, fun i hi => ?_⟩
    cases i with
    | zero => simpa using hnow.2 hlen
    | succ i => simpa [List.append_assoc] using hall i (by simpa using hi)

/-- A call that delivers the first frame. -/
theorem inTime_done (hf : f <+: got ++ c) : InTime (f :: fs) got (c :: cs) ↔
    InTime fs ((got ++ c).drop f.length) cs := by
  have hcount : ∀ r, framesIn (f :: fs) (got ++ (c ++ r)).length =
      framesIn fs ((got ++ c).drop f.length ++ r).length + 1 := by
    intro r
    have hle := hf.length_le
    have hrest : (got ++ (c ++ r)).length - f.length = ((got ++ c).drop f.length ++ r).length := by
      simp only [List.length_append, List.length_drop] at hle ⊢
      omega
    rw [framesIn, if_pos (by simp only [List.length_append] at hle ⊢; omega), hrest]
  constructor
  · rintro ⟨hlen, hall⟩
    refine ⟨by simpa using hlen, fun i hi => ?_⟩
    have hlater := hall (i + 1) (by simpa using hi)
    rw [List.take_succ_cons, List.flatten_cons, hcount, List.length_cons, List.length_cons] at hlater
    omega
  · rintro ⟨hlen, hall⟩
    refine ⟨by simpa using hlen, fun i hi => ?_⟩
    rw [List.take_succ_cons, List.flatten_cons, hcount, List.length_cons, List.length_cons]
    cases i with
    | zero => omega
    | succ i =>
      have hlater := hall i (by simpa using hi)
      omega

end InTime

end Framing
