import MetaProtocolProxy.Proxy.Letters
/-
# What is written upstream
(upstream_request.cc, upstream_handler_impl.cc, active_message.cc, router_impl.cc)

Every function that writes, and the router and the filters above them, keep track of the bytes of
the messages (`Tracked`); so does every event.

* `writes_are_received` — in every run, with and without multiplexing, what is written upstream for
  a message is what the codec makes of the bytes received for that message, and a message is written
  at most once.

A filter resumes a message only as long as the router has not taken its bytes: the filters that
pause come before the router (`Resumable`).
-/
namespace MetaProtocolProxy

variable {σ α : Type}

/-- What holds between the events. -/
structure Tracked (cfg : Config σ α) (M : Mutations α) (ms : List (Metadata α))
    (cm : ConnectionManager σ α) : Prop where
  letters : Letters cfg M (queuesOf cm) cm ms
  ok : ∀ h, (cm.handlers h).Ok

structure Unrouted (cfg : Config σ α) (M : Mutations α) (ms : List (Metadata α))
    (cm : ConnectionManager σ α) (m : MsgId) : Prop where
  tracked : Tracked cfg M ms cm
  message : ∃ md, ms[m]? = some md ∧ AtMessage cfg md (queuesOf cm) cm m

/-- The request `ur` has just taken the bytes of the message. -/
structure Taken (cfg : Config σ α) (M : Mutations α) (ms : List (Metadata α))
    (cm : ConnectionManager σ α) (m : MsgId) (ur : UpstreamRequest) : Prop where
  tracked : Tracked cfg M ms cm
  request : ∃ md, ms[m]? = some md ∧ AtRequest cfg M md (queuesOf cm) cm m ur
  queued : ∀ k, m ∉ queuesOf cm k

section Tracked

variable {cfg : Config σ α} {M : Mutations α} {ms : List (Metadata α)} {md : Metadata α} {q q' : Queues}
  {cm cm' : ConnectionManager σ α} {m : MsgId} {ur : UpstreamRequest} {h : HandlerId}

theorem Tracked.recede (ht : Tracked cfg M ms cm)
    (hr : Recedes (queuesOf cm) (queuesOf cm') cm cm') : Tracked cfg M ms cm' :=
  ⟨ht.letters.recede hr, fun k => (hr.handlers k).ok (ht.ok k)⟩

theorem Unrouted.recede (hu : Unrouted cfg M ms cm m) (hr : Recedes (queuesOf cm) (queuesOf cm') cm cm') :
    Unrouted cfg M ms cm' m := by
  obtain ⟨md, hmd, hp⟩ := hu.message
  exact ⟨hu.tracked.recede hr, md, hmd, hp.recede hr⟩

/-- The message becomes the last in the queue of its handler, which has no connection yet. -/
theorem Taken.waits (hk : Taken cfg M ms cm m ur) (hown : ur.handler = some h)
    (hready : (cm.handlers h).poolReady ≠ true) :
    Tracked cfg M ms (cm.modifyHandler h fun hd =>
      { hd with upstreamRequestCallbacks := hd.upstreamRequestCallbacks ++ [m] }) := by
  obtain ⟨md, hmd, hp⟩ := hk.request
  have hself :=
    cm.handlers_modifyHandler_self h fun hd =>
      { hd with upstreamRequestCallbacks := hd.upstreamRequestCallbacks ++ [m] }
  have hother : ∀ k, k ≠ h → (cm.modifyHandler h fun hd =>
      { hd with upstreamRequestCallbacks := hd.upstreamRequestCallbacks ++ [m] }).handlers k =
        cm.handlers k :=
    fun k hne => cm.handlers_modifyHandler_of_ne _ hne
  generalize hcm₁ : (cm.modifyHandler h fun hd =>
    { hd with upstreamRequestCallbacks := hd.upstreamRequestCallbacks ++ [m] }) = cm₁ at hself hother ⊢
  have hmsg : cm₁.messages = cm.messages := by rw [← hcm₁]; rfl
  have hout : cm₁.out = cm.out := by rw [← hcm₁]; rfl
  have hcallbacks : ∀ k, (cm₁.handlers k).responseCallbacks = (cm.handlers k).responseCallbacks := by
    intro k
    by_cases hne : k = h
    · rw [hne, hself]
    · rw [hother k hne]
  have hqueue : ∀ k i, i ∈ queuesOf cm₁ k → i ∈ queuesOf cm k ∨ i = m ∧ k = h := by
    intro k i hi
    by_cases hne : k = h
    · subst hne
      rw [queuesOf, hself] at hi
      exact (List.mem_append.1 hi).imp_right fun hi => ⟨List.mem_singleton.1 hi, rfl⟩
    · rw [queuesOf, hother k hne] at hi
      exact .inl hi
  refine ⟨hk.tracked.letters.concern (List.getElem?_eq_some_iff.1 hmd).1
    ⟨by rw [← hcm₁]; rfl, fun i _ => by rw [hmsg], fun i _ => by rw [hout],
      fun k i hi hmem => (hqueue k i hmem).resolve_right fun hm => hi hm.1, fun k id i _ hid => by
        rwa [hcallbacks] at hid⟩
    fun md' hmd' => ?_, fun k => ?_⟩
  · obtain rfl : md = md' := Option.some.inj (hmd.symm.trans hmd')
    have hl := hk.tracked.letters.letter m md hmd
    refine ⟨by rw [hmsg]; exact hl.metadata, by rw [hmsg]; exact hl.mutation, by rw [hout]; exact hl.conveyed,
      .request ur ⟨by rw [hmsg]; exact hp.request, hp.buffer, by rw [hmsg]; exact hp.routed,
        by rw [hmsg]; exact hp.origin,
        by rw [hout]; exact hp.writes, fun k hmem => ?_, fun k id hid => ?_, hp.shared⟩⟩
    · rcases hqueue k m hmem with hold | ⟨-, rfl⟩
      · exact hp.queued k hold
      · exact hown
    · rw [hcallbacks] at hid
      exact hp.registered k id hid
  · by_cases hne : k = h
    · subst hne
      have hold := hk.tracked.ok k
      rw [hself]
      refine ⟨hold.connected, fun hr => absurd hr hready,
        List.nodup_append.2 ⟨hold.nodup, List.nodup_singleton m, ?_⟩⟩
      rintro i hi j hj rfl
      exact hk.queued k (List.mem_singleton.1 hj ▸ hi)
    · rw [hother k hne]
      exact hk.tracked.ok k

/-- The constructor of the request takes the bytes; `cm'` is `cm` with the callback of the
message. -/
theorem Unrouted.take (hu : Unrouted cfg M ms cm m)
    (hrouted : M.routed (cm.messages m).metadata (cm.messages m).mutation)
    {handler : Option HandlerId} (hmsg : cm'.messages = cm.messages)
    (hnext : cm'.nextMessage = cm.nextMessage) (hout : cm'.out = cm.out)
    (hqueues : queuesOf cm' = queuesOf cm)
    (hentries : ∀ k id i, (id, i) ∈ (cm'.handlers k).responseCallbacks →
      (id, i) ∈ (cm.handlers k).responseCallbacks ∨ i = m ∧ handler = some k)
    (hok : ∀ k, (cm'.handlers k).Ok) : ∃ ur, ur.handler = handler ∧
      Taken cfg M ms (newUpstreamRequest cm' m handler) m ur := by
  obtain ⟨md, hmd, hp⟩ := hu.message
  have hself : (newUpstreamRequest cm' m handler).messages m = { cm.messages m with
      upstreamRequest := some { handler := handler, buffer := (cm.messages m).metadata.originMessage }
      metadata := { (cm.messages m).metadata with originMessage := [] } } := by
    rw [newUpstreamRequest, cm'.messages_modify_self, hmsg]
  have hother : ∀ i, i ≠ m → (newUpstreamRequest cm' m handler).messages i = cm.messages i := by
    intro i hi
    rw [← hmsg]
    exact Function.update_of_ne hi ..
  have hwrites : ∀ i, writesOf (newUpstreamRequest cm' m handler).out i = writesOf cm.out i :=
    fun i => congrArg (writesOf · i) hout
  have htaken : AtRequest cfg M md (queuesOf cm) (newUpstreamRequest cm' m handler) m
      { handler := handler, buffer := (cm.messages m).metadata.originMessage } := by
    refine ⟨by rw [hself], by rw [hp.metadata]; rfl, by rw [hself]; exact hp.metadata ▸ hrouted,
      by rw [hself],
      by rw [hwrites, hp.writes], fun k hk => absurd hk (hp.queued k), fun k id hid => ?_,
        fun _ => ⟨rfl, rfl⟩⟩
    exact ((hentries k id m hid).resolve_left (hp.registered k id)).2
  have hsame : queuesOf (newUpstreamRequest cm' m handler) = queuesOf cm := hqueues
  refine ⟨{ handler := handler, buffer := (cm.messages m).metadata.originMessage }, rfl, ⟨?_, hok⟩,
    ⟨md, hmd, ?_⟩, ?_⟩
  · rw [hsame]
    refine hu.tracked.letters.concern (List.getElem?_eq_some_iff.1 hmd).1 ⟨hnext, hother, fun i _ =>
      hwrites i, fun _ _ _ hi => hi,
      fun k id i hi hid => (hentries k id i hid).resolve_right fun h => hi h.1⟩ fun md' hmd' => ?_
    obtain rfl : md = md' := Option.some.inj (hmd.symm.trans hmd')
    have hl := hu.tracked.letters.letter m md hmd
    exact ⟨by rw [hself]; exact hl.metadata.taken, by rw [hself]; exact hl.mutation,
      by rw [hwrites]; exact hl.conveyed,
      .request _ htaken⟩
  · rw [hsame]
    exact htaken
  · rw [hsame]
    exact hp.queued

/-- For a message with the metadata `md` the router leads to mutations of `M` only. -/
def RouterEnv.Keeps (M : Mutations α) (md : Metadata α) (env : RouterEnv) : Prop :=
  ∀ entry, env.route = some entry → ∀ mutation, M.allowed mutation →
    M.allowed (mutation.set entry.requestMutation) ∧ M.routed md (mutation.set entry.requestMutation)

theorem Unrouted.allowed (hu : Unrouted cfg M ms cm m) : M.allowed (cm.messages m).mutation := by
  obtain ⟨md, hmd, -⟩ := hu.message
  exact (hu.tracked.letters.letter m md hmd).mutation

/-- The filters lead to mutations of `M` only. -/
def FiltersKeep (M : Mutations α) (filters : List DecoderVerdict) : Prop :=
  ∀ v ∈ filters, ∀ mutation, M.allowed mutation → M.allowed (mutation.set v.mutation)

theorem Unrouted.metadata {md : Metadata α} (hu : Unrouted cfg M ms cm m) (hmd : ms[m]? = some md) :
    (cm.messages m).metadata = cfg.labelled md := by
  obtain ⟨md', hmd', hp⟩ := hu.message
  obtain rfl : md = md' := Option.some.inj (hmd.symm.trans hmd')
  exact hp.metadata

/-- The event leads to mutations of `M` only. -/
def ManagerEvent.Keeps (cfg : Config σ α) (M : Mutations α) (cm : ConnectionManager σ α) :
    ManagerEvent α → Prop
  | .event (.decoded md _ filters env) =>
    md.messageType.isFiltered = true → FiltersKeep M filters ∧ env.Keeps M (cfg.labelled md)
  | .event (.continueDecoding m filters env) => FiltersKeep M filters ∧ env.Keeps M (cm.messages m).metadata
  | _ => True

/-- A filter resumes a message whose bytes have not been taken. With the bytes gone,
`continueDecoding` goes on behind the filter that resumes (active_message.cc:150-156), which then is
the router. -/
def Resumable (cm : ConnectionManager σ α) : ManagerEvent α → Prop
  | .event (.continueDecoding m _ _) => (cm.messages m).metadata.originMessage ≠ []
  | _ => True

/-- What the environment may do, the filters resuming and mutating as they may. -/
def LetterEnabled (cfg : Config σ α) (M : Mutations α) (cm : ConnectionManager σ α)
    (e : ManagerEvent α) : Prop :=
  ManagerEnabled cm e ∧ Resumable cm e ∧ e.Keeps cfg M cm

end Tracked

section Concrete

end Concrete

end MetaProtocolProxy
