import MetaProtocolProxy.Proxy.State
import Mathlib.Data.Set.Insert
import Mathlib.Logic.Relation
/-
# Links shared by requests, abstractly

A link is what an upstream handler is for: one connection to a host, which comes from the pool some
time after it was asked for, and the requests that use it. Requests wait on a link until it is
connected, and have an entry on it until they are answered.

* `Links.Wf` — requests wait only on a link that the pool will answer (`Link.Sound`), and the links
  new requests are given have a connection or will get an answer.
* `Links.Served` — a live request with an entry has a link that is pending or connected, and waits
  on it while it is pending.

`Move.wf` and `Move.served` say that the moves of a multiplexing proxy keep both; a connection that
is closed (`Links.close`) keeps the second only if no live request has an entry on it.
-/
namespace MetaProtocolProxy

structure Link where
  key : String := ""
  ready : Bool := false
  /-- The pool has yet to answer. -/
  pending : Bool := false
  connected : Bool := false
  waiting : Set MsgId := ∅
  /-- The requests to be answered, under their ids. -/
  entries : Set (Nat × MsgId) := ∅

structure Link.Sound (l : Link) : Prop where
  connected : l.connected = l.ready
  ready : l.ready = true → l.pending = false
  waits : l.waiting.Nonempty → l.ready = false ∧ l.pending = true

/-- `l'` is `l` after some requests are gone; those in `live` keep waiting. -/
structure Link.Trims (live : Set MsgId) (l l' : Link) : Prop where
  key : l'.key = l.key
  ready : l'.ready = l.ready
  pending : l'.pending = l.pending
  connected : l'.connected = l.connected
  waiting : l'.waiting ⊆ l.waiting
  stays : ∀ m ∈ l.waiting, m ∈ live → m ∈ l'.waiting
  entries : l'.entries ⊆ l.entries

theorem Link.Trims.refl (live : Set MsgId) (l : Link) : Link.Trims live l l :=
  ⟨rfl, rfl, rfl, rfl, subset_rfl, fun _ hm _ => hm, subset_rfl⟩

structure Links where
  link : HandlerId → Link
  /-- The links given to new requests, by key. -/
  manager : List (String × HandlerId)
  nextHandler : HandlerId
  live : Set MsgId
  nextMessage : MsgId

namespace Links

variable (L : Links)

def set (h : HandlerId) (l : Link) : Links := { L with link := Function.update L.link h l }

def forget (key : String) : Links := { L with manager := L.manager.filter fun kh => kh.1 != key }

def accept : Links := { L with live := insert L.nextMessage L.live, nextMessage := L.nextMessage + 1 }

def create (key : String) (ready : Bool) : Links :=
  { L with
    link := Function.update L.link L.nextHandler
      { key := key, ready := ready, pending := !ready, connected := ready }
    manager := (key, L.nextHandler) :: L.manager
    nextHandler := L.nextHandler + 1 }

/-- Request `m` joins link `h` with `entries` on it, and waits if the link is not ready. -/
def join (h : HandlerId) (m : MsgId) (entries : Set (Nat × MsgId)) : Links :=
  L.set h { L.link h with
    entries := entries
    waiting := if (L.link h).ready then (L.link h).waiting else insert m (L.link h).waiting }

def connect (h : HandlerId) : Links :=
  L.set h { L.link h with ready := true, pending := false, connected := true, waiting := ∅ }

def refuse (h : HandlerId) : Links :=
  (L.set h { L.link h with pending := false, waiting := ∅ }).forget (L.link h).key

def close (h : HandlerId) : Links :=
  (L.set h { L.link h with ready := false, pending := false, connected := false }).forget (L.link h).key

/-- `L'` is `L` after some messages, waiting requests, entries and keys are gone. -/
structure Trims (L L' : Links) : Prop where
  link : ∀ h, Link.Trims L'.live (L.link h) (L'.link h)
  manager : L'.manager ⊆ L.manager
  nextHandler : L'.nextHandler = L.nextHandler
  live : L'.live ⊆ L.live
  nextMessage : L'.nextMessage = L.nextMessage

/-- What a multiplexing proxy does to its links when the pool never refuses a connection at once,
closed connections apart. -/
inductive Move : Links → Links → Prop
  | trim {L L' : Links} (h : Trims L L') : Move L L'
  | accept (L : Links) : Move L L.accept
  | create (L : Links) (key : String) (ready : Bool) : Move L (L.create key ready)
  /-- A known request joins a link it was given; it may get an entry. -/
  | join {L : Links} {key : String} {h : HandlerId} {m : MsgId} {id : Nat} {entries : Set (Nat × MsgId)}
      (hkey : (key, h) ∈ L.manager) (hm : m < L.nextMessage)
      (hentries : entries ⊆ insert (id, m) (L.link h).entries) : Move L (L.join h m entries)
  | connect (L : Links) (h : HandlerId) : Move L (L.connect h)
  /-- The requests that waited are gone. -/
  | refuse {L L' : Links} {h : HandlerId} (hgone : ∀ m ∈ (L.link h).waiting, m ∉ L'.live)
      (ht : Trims (L.refuse h) L') : Move L L'

structure Wf : Prop where
  managed : ∀ {key h}, (key, h) ∈ L.manager →
    h < L.nextHandler ∧ (L.link h).key = key ∧ ((L.link h).ready = true ∨ (L.link h).pending = true)
  sound : ∀ h, (L.link h).Sound

structure Served : Prop where
  queued : ∀ {h id m}, (L.link h).pending = true → (id, m) ∈ (L.link h).entries → m ∈ L.live →
    m ∈ (L.link h).waiting
  served : ∀ {h id m}, (id, m) ∈ (L.link h).entries → m ∈ L.live →
    (L.link h).pending = true ∨ (L.link h).connected = true
  known : ∀ {h id m}, (id, m) ∈ (L.link h).entries → m < L.nextMessage

variable {L} {L' : Links} {h i : HandlerId} {l : Link}

@[simp] theorem set_link_self : (L.set h l).link h = l := Function.update_self ..

theorem set_link_of_ne (hi : i ≠ h) : (L.set h l).link i = L.link i := Function.update_of_ne hi ..

theorem sound_set (hl : l.Sound) (hL : ∀ i, (L.link i).Sound) (i : HandlerId) :
    ((L.set h l).link i).Sound := by
  by_cases hi : i = h
  · subst hi
    rwa [set_link_self]
  · rw [set_link_of_ne hi]
    exact hL i

theorem Trims.of_link (hl : ∀ i, L'.link i = L.link i) (hmanager : L'.manager ⊆ L.manager)
    (hnext : L'.nextHandler = L.nextHandler)
    (hlive : L'.live ⊆ L.live) (hmsg : L'.nextMessage = L.nextMessage) : Trims L L' :=
  ⟨fun i => hl i ▸ .refl _ _, hmanager, hnext, hlive, hmsg⟩

theorem Trims.set (hl : Link.Trims L.live (L.link h) l) : Trims L (L.set h l) := by
  refine ⟨fun i => ?_, List.Subset.refl _, rfl, subset_rfl, rfl⟩
  by_cases hi : i = h
  · subst hi
    rwa [set_link_self]
  · rw [set_link_of_ne hi]
    exact .refl _ _

/-! ## Well-formed links -/

theorem Trims.wf (ht : Trims L L') (wf : L.Wf) : L'.Wf where
  managed {k i} hkey := by
    rw [ht.nextHandler, (ht.link i).key, (ht.link i).ready, (ht.link i).pending]
    exact wf.managed (ht.manager hkey)
  sound h := by
    obtain ⟨hc, hr, hw⟩ := wf.sound h
    have hl := ht.link h
    refine ⟨?_, ?_, fun hne => ?_⟩
    · rw [hl.connected, hl.ready, hc]
    · rwa [hl.ready, hl.pending]
    · rw [hl.ready, hl.pending]
      exact hw (hne.mono hl.waiting)

theorem Wf.set (wf : L.Wf) (hl : l.Sound) (hkey : l.key = (L.link h).key)
    (huse : (L.link h).ready = true ∨ (L.link h).pending = true → l.ready = true ∨
      l.pending = true) : (L.set h l).Wf where
  managed {k i} hk := by
    obtain ⟨hlt, hki, hu⟩ := wf.managed hk
    by_cases hi : i = h
    · subst hi
      rw [set_link_self]
      exact ⟨hlt, hkey.trans hki, huse hu⟩
    · rw [set_link_of_ne hi]
      exact ⟨hlt, hki, hu⟩
  sound := sound_set hl wf.sound

theorem Wf.forget (wf : L.Wf) (hl : l.Sound) : ((L.set h l).forget (L.link h).key).Wf where
  managed {k i} hk := by
    obtain ⟨hmem, hne⟩ := List.mem_filter.1 hk
    obtain ⟨hlt, hki, hu⟩ := wf.managed hmem
    have hi : i ≠ h := by
      rintro rfl
      simp [hki] at hne
    have hlink : ((L.set h l).forget (L.link h).key).link i = L.link i := set_link_of_ne hi
    rw [hlink]
    exact ⟨hlt, hki, hu⟩
  sound := sound_set hl wf.sound

theorem Wf.create (wf : L.Wf) (key : String) (ready : Bool) : (L.create key ready).Wf where
  managed {k i} hk := by
    rcases List.mem_cons.1 hk with heq | hk
    · obtain ⟨rfl, rfl⟩ := Prod.mk.inj heq
      have hlink : (L.create k ready).link L.nextHandler =
        { key := k, ready := ready, pending := !ready, connected := ready } :=
        Function.update_self ..
      rw [hlink]
      exact ⟨Nat.lt_succ_self _, rfl, by cases ready <;> simp⟩
    · obtain ⟨hlt, hki, hu⟩ := wf.managed hk
      have hlink : (L.create key ready).link i = L.link i := Function.update_of_ne (Nat.ne_of_lt hlt) ..
      rw [hlink]
      exact ⟨Nat.lt_succ_of_lt hlt, hki, hu⟩
  sound := sound_set ⟨rfl, by cases ready <;> simp, fun hw => absurd hw Set.not_nonempty_empty⟩ wf.sound

theorem Wf.join (wf : L.Wf) {key : String} (hkey : (key, h) ∈ L.manager) (m : MsgId)
    (entries : Set (Nat × MsgId)) : (L.join h m entries).Wf := by
  obtain ⟨hc, hr, hw⟩ := wf.sound h
  refine wf.set ⟨hc, hr, fun hne => ?_⟩ rfl id
  cases hready : (L.link h).ready with
  | true => exact hready ▸ hw (by simpa [hready] using hne)
  | false => exact ⟨rfl, (wf.managed hkey).2.2.resolve_left (by simp [hready])⟩

theorem Wf.connect (wf : L.Wf) (h : HandlerId) : (L.connect h).Wf :=
  wf.set ⟨rfl, fun _ => rfl, fun hw => absurd hw Set.not_nonempty_empty⟩ rfl fun _ => .inl rfl

theorem Wf.refuse (wf : L.Wf) (h : HandlerId) : (L.refuse h).Wf :=
  wf.forget ⟨(wf.sound h).connected, fun _ => rfl, fun hw => absurd hw Set.not_nonempty_empty⟩

theorem Wf.close (wf : L.Wf) (hc : (L.link h).connected = true) : (L.close h).Wf := by
  refine wf.forget ⟨rfl, fun _ => rfl, fun hw => ?_⟩
  have hready := ((wf.sound h).waits hw).1
  rw [← (wf.sound h).connected, hc] at hready
  cases hready

theorem Move.wf (hm : Move L L') (wf : L.Wf) : L'.Wf := by
  cases hm with
  | trim ht => exact ht.wf wf
  | accept => exact ⟨wf.managed, wf.sound⟩
  | create key ready => exact wf.create key ready
  | join hkey _ _ => exact wf.join hkey _ _
  | connect h => exact wf.connect h
  | refuse _ ht => exact ht.wf (wf.refuse _)

/-! ## Served requests -/

theorem Trims.served (ht : Trims L L') (hs : L.Served) : L'.Served where
  queued {h id m} hp he hm := by
    rw [(ht.link h).pending] at hp
    exact (ht.link h).stays m (hs.queued hp ((ht.link h).entries he) (ht.live hm)) hm
  served {h id m} he hm := by
    rw [(ht.link h).pending, (ht.link h).connected]
    exact hs.served ((ht.link h).entries he) (ht.live hm)
  known {h id m} he := by
    rw [ht.nextMessage]
    exact hs.known ((ht.link h).entries he)

theorem Served.accept (hs : L.Served) : L.accept.Served where
  queued {h id m} hp he hm := by
    rcases hm with rfl | hm
    · exact absurd (hs.known he) (Nat.lt_irrefl _)
    · exact hs.queued hp he hm
  served {h id m} he hm := by
    rcases hm with rfl | hm
    · exact absurd (hs.known he) (Nat.lt_irrefl _)
    · exact hs.served he hm
  known he := Nat.lt_succ_of_lt (hs.known he)

theorem Served.set (hs : L.Served)
    (hq : ∀ {id m}, l.pending = true → (id, m) ∈ l.entries → m ∈ L.live → m ∈ l.waiting)
    (hserved : ∀ {id m}, (id, m) ∈ l.entries → m ∈ L.live → l.pending = true ∨ l.connected = true)
    (hk : ∀ {id m}, (id, m) ∈ l.entries → m < L.nextMessage) : (L.set h l).Served where
  queued {i id m} hp he hm := by
    by_cases hi : i = h
    · subst hi
      rw [set_link_self] at hp he ⊢
      exact hq hp he hm
    · rw [set_link_of_ne hi] at hp he ⊢
      exact hs.queued hp he hm
  served {i id m} he hm := by
    by_cases hi : i = h
    · subst hi
      rw [set_link_self] at he ⊢
      exact hserved he hm
    · rw [set_link_of_ne hi] at he ⊢
      exact hs.served he hm
  known {i id m} he := by
    by_cases hi : i = h
    · subst hi
      rw [set_link_self] at he
      exact hk he
    · rw [set_link_of_ne hi] at he
      exact hs.known he

theorem Served.create (hs : L.Served) (key : String) (ready : Bool) : (L.create key ready).Served := by
  have hset : (L.set L.nextHandler
    { key := key, ready := ready, pending := !ready, connected := ready }).Served :=
    hs.set (fun _ he => he.elim) (fun he => he.elim) fun he => he.elim
  exact ⟨hset.queued, hset.served, hset.known⟩

theorem Served.join (hs : L.Served) (wf : L.Wf) {key : String} {m : MsgId} {id : Nat}
    {entries : Set (Nat × MsgId)}
    (hkey : (key, h) ∈ L.manager) (hm : m < L.nextMessage)
    (hentries : entries ⊆ insert (id, m) (L.link h).entries) : (L.join h m entries).Served := by
  refine hs.set (fun hp he hlive => ?_) (fun he hlive => ?_) fun he => ?_
  · have hready : (L.link h).ready = false := by
      cases hr : (L.link h).ready with
      | true => exact absurd hp (by simp [(wf.sound h).ready hr])
      | false => rfl
    simp only [hready, Bool.false_eq_true, if_false]
    rcases hentries he with heq | he
    · exact Set.mem_insert_iff.2 (.inl (Prod.mk.inj heq).2)
    · exact Set.mem_insert_of_mem m (hs.queued hp he hlive)
  · rcases hentries he with heq | he
    · rcases (wf.managed hkey).2.2 with hr | hp
      · exact .inr ((wf.sound h).connected.trans hr)
      · exact .inl hp
    · exact hs.served he hlive
  · rcases hentries he with heq | he
    · exact (Prod.mk.inj heq).2 ▸ hm
    · exact hs.known he

theorem Served.connect (hs : L.Served) (h : HandlerId) : (L.connect h).Served :=
  hs.set (fun hp => absurd hp (by simp)) (fun _ _ => .inr rfl) hs.known

theorem Served.refuse (hs : L.Served) (hgone : ∀ m ∈ (L.link h).waiting, m ∉ L'.live)
    (ht : Trims (L.refuse h) L') : L'.Served := by
  have hlive : L'.live ⊆ L.live := ht.live
  -- the links of `L` with the messages of `L'`
  have hmid : ({ L with live := L'.live } : Links).Served :=
    ⟨fun hp he hm => hs.queued hp he (hlive hm), fun he hm => hs.served he (hlive hm), hs.known⟩
  have hset : (({ L with live := L'.live } : Links).set h
      { L.link h with pending := false, waiting := ∅ }).Served := by
    refine hmid.set (fun hp => absurd hp (by simp)) (fun he hm => ?_) hs.known
    refine (hs.served he (hlive hm)).elim (fun hp => ?_) .inr
    exact absurd hm (hgone _ (hs.queued hp he (hlive hm)))
  have hmanager : L'.manager ⊆ L.manager := fun kh hk =>
    List.mem_of_mem_filter (show kh ∈ L.manager.filter fun kh => kh.1 != (L.link h).key from ht.manager hk)
  have htrim : Trims
    (({ L with live := L'.live } : Links).set h { L.link h with pending := false, waiting := ∅ }) L' :=
    ⟨ht.link, hmanager, ht.nextHandler, subset_rfl, ht.nextMessage⟩
  exact htrim.served hset

theorem Served.close (hs : L.Served) (hnone : ∀ {id m}, (id, m) ∈ (L.link h).entries → m ∉ L.live) :
    (L.close h).Served := by
  have hset : (L.set h { L.link h with ready := false, pending := false, connected := false }).Served :=
    hs.set (fun hp => absurd hp (by simp)) (fun he hm => absurd hm (hnone he)) hs.known
  exact ⟨hset.queued, hset.served, hset.known⟩

theorem Move.served (hm : Move L L') (wf : L.Wf) (hs : L.Served) : L'.Served := by
  cases hm with
  | trim ht => exact ht.served hs
  | accept => exact hs.accept
  | create key ready => exact hs.create key ready
  | join hkey hm hentries => exact hs.join wf hkey hm hentries
  | connect h => exact hs.connect h
  | refuse hgone ht => exact hs.refuse hgone ht

/-! ## Any number of moves -/

theorem wf_of_moves (hm : Relation.ReflTransGen Move L L') (wf : L.Wf) : L'.Wf := by
  induction hm with
  | refl => exact wf
  | tail _ hm ih => exact hm.wf ih

theorem served_of_moves (hm : Relation.ReflTransGen Move L L') (wf : L.Wf) (hs : L.Served) : L'.Served := by
  induction hm with
  | refl => exact hs
  | tail hms hm ih => exact hm.served (wf_of_moves hms wf) ih

end Links

end MetaProtocolProxy
