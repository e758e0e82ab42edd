import MetaProtocolProxy.Lib.Framing
/-
# Decoders that work in small steps

A decoder that keeps its place in the middle of a message is a process: each `Move` looks at the
unread input and takes a step, delivers a message, fails, or waits and leaves everything as it
is. One call makes moves until it delivers, fails or waits (`Calls`); the owner calls again while
messages are delivered (`Drains`), and does so after each chunk of input (`Feeds`).

A process is `Steady` when a move made on some input is made in the same way if more follows.
`feeds_iff_whole`: then it makes no difference how the input is cut into chunks. Both sides are
relations, so a process that runs for ever on the one does so on the other.
-/
namespace Process

open Framing (Step)

variable {σ β μ ε : Type}

/-- One step of a process on the unread input. -/
inductive Move (σ β μ ε : Type)
  | wait
  | go (s : σ) (rest : List β)
  | deliver (s : σ) (m : μ) (rest : List β)
  | fail (s : σ) (rest : List β) (e : ε)

/-- A move on some input is the same move when more input follows. -/
structure Steady (move : σ → List β → Move σ β μ ε) : Prop where
  go : ∀ {s s' b r}, move s b = .go s' r → ∀ x, move s (b ++ x) = .go s' (r ++ x)
  deliver : ∀ {s s' m b r}, move s b = .deliver s' m r → ∀ x, move s (b ++ x) = .deliver s' m (r ++ x)
  fail : ∀ {s s' e b r}, move s b = .fail s' r e → ∀ x, move s (b ++ x) = .fail s' (r ++ x) e

/-- The same move with `x` behind what is left. -/
def Move.more (m : Move σ β μ ε) (x : List β) : Move σ β μ ε :=
  match m with
  | .wait => .wait
  | .go s rest => .go s (rest ++ x)
  | .deliver s m rest => .deliver s m (rest ++ x)
  | .fail s rest e => .fail s (rest ++ x) e

theorem steady_of_more {move : σ → List β → Move σ β μ ε}
    (h : ∀ s b x, move s b ≠ .wait → move s (b ++ x) = (move s b).more x) : Steady move where
  go := by
    intro s s' b r hm x
    rw [h s b x (by simp [hm]), hm, Move.more]
  deliver := by
    intro s s' m b r hm x
    rw [h s b x (by simp [hm]), hm, Move.more]
  fail := by
    intro s s' e b r hm x
    rw [h s b x (by simp [hm]), hm, Move.more]

/-- One call: moves until something is delivered, fails or waits, `none` if `n` moves do not
suffice. -/
def call (move : σ → List β → Move σ β μ ε) : Nat → σ → List β → Option (Step σ β μ ε)
  | 0, _, _ => none
  | n + 1, s, b =>
    match move s b with
    | .wait => some (.wait s b)
    | .go s' r => call move n s' r
    | .deliver s' m r => some (.done s' m r)
    | .fail s' r e => some (.fail s' r e)

/-- The call returns `r`. -/
def Calls (move : σ → List β → Move σ β μ ε) (s : σ) (b : List β) (r : Step σ β μ ε) : Prop :=
  ∃ n, call move n s b = some r

/-- How a sequence of calls ends: the decoder waits, or a call failed with `rest` unread. -/
inductive Ended (σ β ε : Type)
  | waiting (s : σ) (rest : List β)
  | failed (e : ε) (rest : List β)

/-- Calls, as long as they deliver messages. -/
inductive Drains (C : σ → List β → Step σ β μ ε → Prop) : σ → List β → List μ → Ended σ β ε → Prop
  | wait {s s' b r} (h : C s b (.wait s' r)) : Drains C s b [] (.waiting s' r)
  | fail {s s' b r e} (h : C s b (.fail s' r e)) : Drains C s b [] (.failed e r)
  | done {s s' b r m ms en} (h : C s b (.done s' m r)) (t : Drains C s' r ms en) : Drains C s b (m :: ms) en

/-- The same after each chunk, until a call fails; what was not read then is what is left of the
whole input. -/
inductive Feeds (C : σ → List β → Step σ β μ ε → Prop) : σ → List β → List (List β) → List μ →
    Ended σ β ε → Prop
  | nil {s b} : Feeds C s b [] [] (.waiting s b)
  | wait {s s' b b' c cs ms ms' en} (h : Drains C s (b ++ c) ms (.waiting s' b')) (t :
      Feeds C s' b' cs ms' en) :
    Feeds C s b (c :: cs) (ms ++ ms') en
  | fail {s b b' c cs ms e} (h : Drains C s (b ++ c) ms (.failed e b')) :
    Feeds C s b (c :: cs) ms (.failed e (b' ++ cs.flatten))

/-- All the moves of a sequence of calls. -/
inductive Runs (move : σ → List β → Move σ β μ ε) : σ → List β → List μ → Ended σ β ε → Prop
  | wait {s b} (h : move s b = .wait) : Runs move s b [] (.waiting s b)
  | fail {s s' b r e} (h : move s b = .fail s' r e) : Runs move s b [] (.failed e r)
  | go {s s' b r ms en} (h : move s b = .go s' r) (t : Runs move s' r ms en) : Runs move s b ms en
  | deliver {s s' b r m ms en} (h : move s b = .deliver s' m r) (t : Runs move s' r ms en) :
      Runs move s b (m :: ms) en

/-- What is left to do after a call has answered. -/
inductive Follows (move : σ → List β → Move σ β μ ε) : Step σ β μ ε → List μ → Ended σ β ε → Prop
  | wait {s b} : Follows move (.wait s b) [] (.waiting s b)
  | fail {s b e} : Follows move (.fail s b e) [] (.failed e b)
  | done {s m b ms en} (t : Runs move s b ms en) : Follows move (.done s m b) (m :: ms) en

section Moves

variable {move : σ → List β → Move σ β μ ε} {s s' : σ} {b b' x : List β} {ms ms' : List μ} {en : Ended σ β ε}

/-- The moves of one call, and then those of the calls behind it. -/
theorem Runs.of_call {r : Step σ β μ ε} {n : Nat} (h : call move n s b = some r) (t : Follows move r ms en) :
    Runs move s b ms en := by
  induction n generalizing s b with
  | zero => cases h
  | succ n ih =>
    rw [call] at h
    cases hm : move s b with
    | wait =>
      simp only [hm, Option.some.injEq] at h
      subst h
      cases t
      exact .wait hm
    | go s₁ r₁ =>
      simp only [hm] at h
      exact .go hm (ih h)
    | deliver s₁ m₁ r₁ =>
      simp only [hm, Option.some.injEq] at h
      subst h
      cases t with
      | done t => exact .deliver hm t
    | fail s₁ r₁ e₁ =>
      simp only [hm, Option.some.injEq] at h
      subst h
      cases t
      exact .fail hm

theorem calls_go_iff {r : Step σ β μ ε} (hm : move s b = .go s' b') : Calls move s b r ↔
    Calls move s' b' r := by
  constructor
  · rintro ⟨n, hn⟩
    cases n with
    | zero => cases hn
    | succ n => exact ⟨n, by simpa only [call, hm] using hn⟩
  · rintro ⟨n, hn⟩
    exact ⟨n + 1, by simp only [call, hm, hn]⟩

theorem Calls.go {r : Step σ β μ ε} (hm : move s b = .go s' b') (h : Calls move s' b' r) : Calls move s b r :=
  (calls_go_iff hm).2 h

/-- A move other than `go` answers the call. -/
theorem calls_iff_of_answer {r a : Step σ β μ ε} (h : ∀ n, call move (n + 1) s b = some a) :
    Calls move s b r ↔ r = a := by
  constructor
  · rintro ⟨n, hn⟩
    cases n with
    | zero => cases hn
    | succ n => exact Option.some.inj (hn.symm.trans (h n))
  · rintro rfl
    exact ⟨1, h 0⟩

theorem Drains.go (hm : move s b = .go s' b') (h : Drains (Calls move) s' b' ms en) :
    Drains (Calls move) s b ms en := by
  cases h with
  | wait h => exact .wait (Calls.go hm h)
  | fail h => exact .fail (Calls.go hm h)
  | done h t => exact .done (Calls.go hm h) t

theorem drains_iff_runs : Drains (Calls move) s b ms en ↔ Runs move s b ms en := by
  constructor
  · intro h
    induction h with
    | wait h =>
      obtain ⟨n, hn⟩ := h
      exact .of_call hn .wait
    | fail h =>
      obtain ⟨n, hn⟩ := h
      exact .of_call hn .fail
    | done h _ ih =>
      obtain ⟨n, hn⟩ := h
      exact .of_call hn (.done ih)
  · intro h
    induction h with
    | wait h => exact .wait ⟨1, by rw [call, h]⟩
    | fail h => exact .fail ⟨1, by rw [call, h]⟩
    | go h _ ih => exact .go h ih
    | deliver h _ ih => exact .done ⟨1, by rw [call, h]⟩ ih

variable (hs : Steady move)
include hs

/-- Where the run on some input waits, the run on more of it goes on. -/
theorem Runs.append_waiting (h : Runs move s b ms (.waiting s' b')) (t : Runs move s' (b' ++ x) ms' en) :
    Runs move s (b ++ x) (ms ++ ms') en := by
  generalize hw : Ended.waiting s' b' = w at h
  induction h with
  | wait h =>
    cases hw
    exact t
  | fail h => cases hw
  | go h _ ih => exact .go (hs.go h x) (ih hw)
  | deliver h _ ih => exact .deliver (hs.deliver h x) (ih hw)

theorem Runs.append_failed {e : ε} (h : Runs move s b ms (.failed e b')) :
    Runs move s (b ++ x) ms (.failed e (b' ++ x)) := by
  generalize hw : Ended.failed e b' = w at h
  induction h with
  | wait h => cases hw
  | fail h =>
    cases hw
    exact .fail (hs.fail h x)
  | go h _ ih => exact .go (hs.go h x) (ih hw)
  | deliver h _ ih => exact .deliver (hs.deliver h x) (ih hw)

/-- A run on some input and more begins with the run on the first part. -/
theorem Runs.split (h : Runs move s (b ++ x) ms en) :
    (∃ ms₁ s' b' ms₂, Runs move s b ms₁ (.waiting s' b') ∧ Runs move s' (b' ++ x) ms₂ en ∧ ms = ms₁ ++ ms₂) ∨
      ∃ e b', Runs move s b ms (.failed e b') ∧ en = .failed e (b' ++ x) := by
  generalize hb : b ++ x = bx at h
  induction h generalizing b with
  | @wait s _ hm =>
    subst hb
    cases hb' : move s b with
    | wait => exact .inl ⟨[], s, b, [], .wait hb', .wait hm, rfl⟩
    | go s' r => rw [hs.go hb' x] at hm; cases hm
    | deliver s' m r => rw [hs.deliver hb' x] at hm; cases hm
    | fail s' r e => rw [hs.fail hb' x] at hm; cases hm
  | @fail s s' _ r e hm =>
    subst hb
    cases hb' : move s b with
    | wait => exact .inl ⟨[], s, b, [], .wait hb', .fail hm, rfl⟩
    | go s' r => rw [hs.go hb' x] at hm; cases hm
    | deliver s' m r => rw [hs.deliver hb' x] at hm; cases hm
    | fail s' r e =>
      rw [hs.fail hb' x] at hm
      cases hm
      exact .inr ⟨_, r, .fail hb', rfl⟩
  | @go s s' _ r ms en hm t ih =>
    subst hb
    cases hb' : move s b with
    | wait => exact .inl ⟨[], s, b, ms, .wait hb', .go hm t, rfl⟩
    | go s' r =>
      rw [hs.go hb' x] at hm
      cases hm
      rcases ih rfl with ⟨ms₁, s₁, b₁, ms₂, h₁, h₂, rfl⟩ | ⟨e, b₁, h₁, rfl⟩
      · exact .inl ⟨ms₁, s₁, b₁, ms₂, .go hb' h₁, h₂, rfl⟩
      · exact .inr ⟨e, b₁, .go hb' h₁, rfl⟩
    | deliver s' m r => rw [hs.deliver hb' x] at hm; cases hm
    | fail s' r e => rw [hs.fail hb' x] at hm; cases hm
  | @deliver s s' _ r m ms en hm t ih =>
    subst hb
    cases hb' : move s b with
    | wait => exact .inl ⟨[], s, b, m :: ms, .wait hb', .deliver hm t, rfl⟩
    | go s' r => rw [hs.go hb' x] at hm; cases hm
    | deliver s' m r =>
      rw [hs.deliver hb' x] at hm
      cases hm
      rcases ih rfl with ⟨ms₁, s₁, b₁, ms₂, h₁, h₂, rfl⟩ | ⟨e, b₁, h₁, rfl⟩
      · exact .inl ⟨_ :: ms₁, s₁, b₁, ms₂, .deliver hb' h₁, h₂, rfl⟩
      · exact .inr ⟨e, b₁, .deliver hb' h₁, rfl⟩
    | fail s' r e => rw [hs.fail hb' x] at hm; cases hm

/-- Feeding chunks is running on all of them. -/
theorem feeds_iff_runs {c : List β} {cs : List (List β)} :
    Feeds (Calls move) s b (c :: cs) ms en ↔ Runs move s (b ++ (c :: cs).flatten) ms en := by
  induction cs generalizing s b c ms with
  | nil =>
    simp only [List.flatten_cons, List.flatten_nil, List.append_nil]
    constructor
    · intro h
      cases h with
      | wait h t =>
        cases t
        simpa using drains_iff_runs.1 h
      | fail h => simpa using drains_iff_runs.1 h
    · intro h
      cases en with
      | waiting s' b' => simpa using Feeds.wait (drains_iff_runs.2 h) (.nil (C := Calls move))
      | failed e b' =>
        have hfail : Feeds (Calls move) s b [c] ms
          (.failed e (b' ++ ([] : List (List β)).flatten)) := .fail (drains_iff_runs.2 h)
        simpa using hfail
  | cons c' cs ih =>
    rw [List.flatten_cons, ← List.append_assoc]
    constructor
    · intro h
      cases h with
      | wait h t => exact (drains_iff_runs.1 h).append_waiting hs (ih.1 t)
      | fail h => exact (drains_iff_runs.1 h).append_failed hs
    · intro h
      rcases h.split hs with ⟨ms₁, s', b', ms₂, h₁, h₂, rfl⟩ | ⟨e, b', h₁, rfl⟩
      · exact .wait (drains_iff_runs.2 h₁) (ih.2 h₂)
      · exact .fail (drains_iff_runs.2 h₁)

/-- **It makes no difference how the input is cut.** -/
theorem feeds_iff_whole {c : List β} {cs : List (List β)} :
    Feeds (Calls move) s b (c :: cs) ms en ↔ Feeds (Calls move) s b [(c :: cs).flatten] ms en := by
  rw [feeds_iff_runs hs, feeds_iff_runs hs]
  simp

end Moves

end Process
