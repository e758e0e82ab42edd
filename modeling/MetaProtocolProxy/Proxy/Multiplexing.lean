import MetaProtocolProxy.Proxy.Links
import MetaProtocolProxy.Proxy.Service
/-
# The upstream handlers of a multiplexing proxy are links

With multiplexing, every event of the connection manager is a sequence of moves of the abstract
links (`step_follows`), as long as the pool does not refuse a connection at once; a close event
closes the link (`links_handlerClose`).

`Trimmed` is what the functions on one message do: they leave the handlers alone and only take
messages off `active_message_list_`. For those that write nothing it follows from `Settles`
(`Settles.trimmed`).
-/
namespace MetaProtocolProxy

variable {σ α : Type}

def links (cm : ConnectionManager σ α) : Links where
  link h :=
    { key := (cm.handlers h).key
      ready := (cm.handlers h).poolReady
      pending := (cm.handlers h).upstreamHandle
      connected := (cm.handlers h).conn.isSome
      waiting := { m | m ∈ (cm.handlers h).upstreamRequestCallbacks }
      entries := { e | e ∈ (cm.handlers h).responseCallbacks } }
  manager := cm.handlerManager
  nextHandler := cm.nextHandler
  live := { m | m ∈ cm.activeMessageList }
  nextMessage := cm.nextMessage

structure UpstreamRequest.Shared (ur : UpstreamRequest) : Prop where
  handler : ur.handler.isSome = true
  handle : ur.handle = false
  conn : ur.conn = none
  responseComplete : ur.responseComplete = false

structure Kept (cm : ConnectionManager σ α) : Prop extends Listed cm where
  shared : ∀ {m ur}, (cm.messages m).upstreamRequest = some ur → ur.Shared
  pending : ∀ {m}, (cm.messages m).pendingStreamDecoded = true → m < cm.nextMessage

/-- `cm'` comes after `cm`: unless the process has crashed, the links have moved. -/
structure Follows (cm cm' : ConnectionManager σ α) : Prop where
  kept : Kept cm → Kept cm'
  nextMessage : cm.nextMessage ≤ cm'.nextMessage
  crashed : cm.crashed = true → cm'.crashed = true
  moves : Kept cm → cm'.crashed = false → Relation.ReflTransGen Links.Move (links cm) (links cm')

/-- `cm'` is `cm` after some messages have changed or been handed to the dispatcher. -/
structure Trimmed (cm cm' : ConnectionManager σ α) : Prop where
  handlers : cm'.handlers = cm.handlers
  handlerManager : cm'.handlerManager = cm.handlerManager
  nextHandler : cm'.nextHandler = cm.nextHandler
  nextMessage : cm'.nextMessage = cm.nextMessage
  active : cm'.activeMessageList ⊆ cm.activeMessageList
  kept : Kept cm → Kept cm'
  crashed : cm.crashed = true → cm'.crashed = true

variable {cm cm₁ cm₂ : ConnectionManager σ α} {m : MsgId}

namespace Trimmed

theorem refl (cm : ConnectionManager σ α) : Trimmed cm cm := ⟨rfl, rfl, rfl, rfl, List.Subset.refl _, id, id⟩

theorem trans (h₁ : Trimmed cm cm₁) (h₂ : Trimmed cm₁ cm₂) : Trimmed cm cm₂ where
  handlers := h₂.handlers.trans h₁.handlers
  handlerManager := h₂.handlerManager.trans h₁.handlerManager
  nextHandler := h₂.nextHandler.trans h₁.nextHandler
  nextMessage := h₂.nextMessage.trans h₁.nextMessage
  active := List.Subset.trans h₂.active h₁.active
  kept := h₂.kept ∘ h₁.kept
  crashed := h₂.crashed ∘ h₁.crashed

theorem of_frame (hactive : cm₁.activeMessageList ⊆ cm.activeMessageList)
    (hperm : (cm₁.activeMessageList ++ cm₁.deferred).Perm (cm.activeMessageList ++ cm.deferred))
    (hhandlers : cm₁.handlers = cm.handlers) (hmanager : cm₁.handlerManager = cm.handlerManager)
    (hnextHandler : cm₁.nextHandler = cm.nextHandler) (hnext : cm₁.nextMessage = cm.nextMessage)
    (hmessages : cm₁.messages = cm.messages) (hcrashed : cm.crashed = true → cm₁.crashed = true) :
    Trimmed cm cm₁ where
  handlers := hhandlers
  handlerManager := hmanager
  nextHandler := hnextHandler
  nextMessage := hnext
  active := hactive
  kept hk :=
    { nodup := hperm.nodup_iff.2 hk.nodup
      known := fun hm => hnext ▸ hk.known (hperm.mem_iff.1 hm)
      shared := fun hur => hk.shared (hmessages ▸ hur)
      pending := fun hp => hnext ▸ hk.pending (hmessages ▸ hp) }
  crashed := hcrashed

theorem emit (cm : ConnectionManager σ α) (o : Out α) : Trimmed cm (cm.emit o) :=
  of_frame (List.Subset.refl _) (.refl _) rfl rfl rfl rfl rfl id

theorem crash (cm : ConnectionManager σ α) : Trimmed cm cm.crash :=
  of_frame (List.Subset.refl _) (.refl _) rfl rfl rfl rfl rfl fun _ => rfl

theorem resetAllMessages (cm : ConnectionManager σ α) : Trimmed cm cm.resetAllMessages :=
  of_frame (List.nil_subset _)
    (by simpa [ConnectionManager.resetAllMessages] using List.perm_append_comm) rfl rfl rfl rfl rfl id

theorem modify (cm : ConnectionManager σ α) (m : MsgId) {f : ActiveMessage σ α → ActiveMessage σ α}
    (hreq : ∀ a ur, (f a).upstreamRequest = some ur → ∃ ur₀, a.upstreamRequest = some ur₀ ∧
      (ur₀.Shared → ur.Shared))
    (hpend : ∀ a, (f a).pendingStreamDecoded = true → a.pendingStreamDecoded = true) :
    Trimmed cm (cm.modify m f) := by
  refine ⟨rfl, rfl, rfl, rfl, List.Subset.refl _, fun hk =>
    ⟨⟨hk.nodup, hk.known⟩, fun {i ur} hur => ?_, fun {i} hi => ?_⟩, id⟩
  · simp only [ConnectionManager.modify, Function.update_apply] at hur
    split at hur
    · obtain ⟨ur₀, hur₀, hs⟩ := hreq _ _ hur
      exact hs (hk.shared hur₀)
    · exact hk.shared hur
  · simp only [ConnectionManager.modify, Function.update_apply] at hi
    split at hi
    next heq =>
      subst heq
      exact hk.pending (hpend _ hi)
    · exact hk.pending hi

theorem modifyRequest (cm : ConnectionManager σ α) (m : MsgId) {f : UpstreamRequest → UpstreamRequest}
    (hf : ∀ ur, ur.Shared → (f ur).Shared) : Trimmed cm (cm.modifyRequest m f) := by
  refine modify cm m (fun a ur hur => ?_) fun a h => h
  obtain ⟨ur₀, hur₀, rfl⟩ := Option.map_eq_some_iff.1 hur
  exact ⟨ur₀, hur₀, hf ur₀⟩

theorem links (h : Trimmed cm cm₁) : (links cm).Trims (MetaProtocolProxy.links cm₁) := by
  refine .of_link (fun i => ?_) ?_ h.nextHandler h.active h.nextMessage
  · simp only [MetaProtocolProxy.links, h.handlers]
  · show cm₁.handlerManager ⊆ cm.handlerManager
    rw [h.handlerManager]
    exact List.Subset.refl _

theorem follows (h : Trimmed cm cm₁) : Follows cm cm₁ where
  kept := h.kept
  nextMessage := Nat.le_of_eq h.nextMessage.symm
  crashed := h.crashed
  moves _ _ := .single (.trim h.links)

end Trimmed

namespace Follows

theorem refl (cm : ConnectionManager σ α) : Follows cm cm := ⟨id, Nat.le_refl _, id, fun _ _ => .refl⟩

theorem trans (h₁ : Follows cm cm₁) (h₂ : Follows cm₁ cm₂) : Follows cm cm₂ where
  kept := h₂.kept ∘ h₁.kept
  nextMessage := Nat.le_trans h₁.nextMessage h₂.nextMessage
  crashed := h₂.crashed ∘ h₁.crashed
  moves hk hc := by
    -- a process that is alive later was alive before
    have hc₁ : cm₁.crashed = false := by
      cases hcr : cm₁.crashed with
      | true => rw [h₂.crashed hcr] at hc; cases hc
      | false => rfl
    exact (h₁.moves hk hc₁).trans (h₂.moves (h₁.kept hk) hc)

end Follows

/-! ## Functions on one message -/

theorem UpstreamRequest.Fades.shared {ur ur' : UpstreamRequest} (h : ur.Fades ur')
    (hs : ur.Shared) : ur'.Shared where
  handler := h.handler ▸ hs.handler
  handle := Bool.eq_false_iff.2 fun hh => Bool.eq_false_iff.1 hs.handle (h.handle hh)
  conn := Option.not_isSome_iff_eq_none.1 fun hc => Option.not_isSome_iff_eq_none.2 hs.conn (h.conn hc)
  responseComplete := h.responseComplete.trans hs.responseComplete

theorem Settles.trimmed (h : Settles False False m cm cm₁) : Trimmed cm cm₁ where
  handlers := funext fun k => (h.handlers k).resolve_right fun hleft => hleft.1
  handlerManager := h.handlerManager
  nextHandler := h.nextHandler
  nextMessage := h.nextMessage
  active := h.active
  kept hk :=
    { nodup := h.perm.nodup_iff.2 hk.nodup
      known := fun hi => h.nextMessage ▸ hk.known (h.perm.mem_iff.1 hi)
      shared := fun {i ur} hur => by
        by_cases hi : i = m
        · obtain ⟨ur₀, hur₀, hfades⟩ := h.request_of_some (hi ▸ hur)
          exact hfades.shared (hk.shared hur₀)
        · exact hk.shared (h.others i hi ▸ hur)
      pending := fun {i} hp => by
        rw [h.nextMessage]
        by_cases hi : i = m
        · exact hi ▸ hk.pending (h.record.resumes (hi ▸ hp))
        · exact hk.pending (h.others i hi ▸ hp) }
  crashed := h.crashed

section Messages

variable (cfg : Config σ α) (cm : ConnectionManager σ α) (m : MsgId)

theorem encodeDataByHandler_trimmed (h : HandlerId) : Trimmed cm (encodeDataByHandler cfg cm h m).2 := by
  unfold encodeDataByHandler
  split
  · exact .refl cm
  · split
    · exact .refl cm
    · split
      · exact .refl cm
      · exact (Trimmed.modifyRequest cm m (f := fun ur => { ur with buffer := [] })
          fun ur hs => ⟨hs.handler, hs.handle, hs.conn, hs.responseComplete⟩).trans (.emit ..)

theorem onPoolReadyByHandler_trimmed (h : HandlerId) (host : String) :
    Trimmed cm (onPoolReadyByHandler cfg cm h host m) := by
  have h₁ : Trimmed cm (continueDecoding (cm.modifyRequest m fun ur => { ur with host := host }) m) :=
    (Trimmed.modifyRequest cm m (f := fun ur => { ur with host := host })
      fun ur hs => ⟨hs.handler, hs.handle, hs.conn, hs.responseComplete⟩).trans
        (continueDecoding_settles _ m).trimmed
  have h₂ := h₁.trans (encodeDataByHandler_trimmed cfg _ m h)
  simp only [onPoolReadyByHandler]
  generalize encodeDataByHandler cfg _ h m = r at h₂ ⊢
  rcases r with ⟨e | u, cm₂⟩
  · exact h₂.trans (.crash cm₂)
  · exact h₂.trans (.modifyRequest cm₂ m (f := fun ur => { ur with requestComplete := true })
      fun ur hs => ⟨hs.handler, hs.handle, hs.conn, hs.responseComplete⟩)

theorem setStream_trimmed (k : Nat) (st : Stream) : Trimmed cm (cm.setStream k st) :=
  .of_frame (List.Subset.refl _) (.refl _) rfl rfl rfl rfl rfl id

theorem newActiveStream_trimmed (k : Nat) : Trimmed cm (newActiveStream cm k) := by
  obtain ⟨os, -, heq⟩ := newActiveStream_eq cm k
  rw [heq]
  exact .of_frame (List.Subset.refl _) (.refl _) rfl rfl rfl rfl rfl id

theorem forwardToStream_trimmed (closesClient closesServer : Bool) :
    Trimmed cm (forwardToStream cm m closesClient closesServer) := by
  simp only [forwardToStream]
  split
  · exact .refl cm
  · split
    · exact setStream_trimmed ..
    · exact ((setStream_trimmed ..).trans (.emit ..)).trans
        (.modify _ m (fun a ur hur => ⟨ur, hur, id⟩) fun a ha => ha)

theorem clearStream_trimmed : Trimmed cm (clearStream cm) := by
  obtain ⟨os, -, -, heq⟩ := clearStream_eq cm
  rw [heq]
  exact .of_frame (List.Subset.refl _) (.refl _) rfl rfl rfl rfl rfl id

end Messages

/-! ## The pool's answers to a handler -/

section Pool

variable (cfg : Config σ α)

theorem foldl_onPoolFailure (reason : PoolFailureReason) (host : String) (ms : List MsgId)
    (cm : ConnectionManager σ α) :
    Trimmed cm (ms.foldl (fun cm m => onPoolFailure cfg cm m reason host) cm) ∧
      (Kept cm → (ms.foldl (fun cm m => onPoolFailure cfg cm m reason host) cm).crashed = false →
        ∀ m ∈ ms, m ∉ (ms.foldl (fun cm m => onPoolFailure cfg cm m reason host) cm).activeMessageList) := by
  induction ms generalizing cm with
  | nil => exact ⟨.refl cm, fun _ _ m hm => absurd hm List.not_mem_nil⟩
  | cons i ms ih =>
    have h₁ : Trimmed cm _ := (onPoolFailure_settles cfg cm i id reason host).trimmed
    obtain ⟨h₂, hgone⟩ := ih (onPoolFailure cfg cm i reason host)
    refine ⟨h₁.trans h₂, fun hk hc m hm => ?_⟩
    have hc₁ : (onPoolFailure cfg cm i reason host).crashed = false :=
      Bool.eq_false_iff.2 fun hcr => by simp [h₂.crashed hcr] at hc
    rcases List.mem_cons.1 hm with rfl | hm
    · exact fun hmem =>
        onPoolFailure_gone cfg hk.nodup (fun ur hur => (hk.shared hur).responseComplete) reason host hc₁
        (h₂.active hmem)
    · exact hgone (h₁.kept hk) hc m hm

theorem links_modifyHandler (cm : ConnectionManager σ α) (h : HandlerId)
    (f : UpstreamHandler σ → UpstreamHandler σ) : links (cm.modifyHandler h f) = (links cm).set h
      { key := (f (cm.handlers h)).key
        ready := (f (cm.handlers h)).poolReady
        pending := (f (cm.handlers h)).upstreamHandle
        connected := (f (cm.handlers h)).conn.isSome
        waiting := { m | m ∈ (f (cm.handlers h)).upstreamRequestCallbacks }
        entries := { e | e ∈ (f (cm.handlers h)).responseCallbacks } } := by
  simp only [links, ConnectionManager.modifyHandler, Links.set, Links.mk.injEq, and_true]
  funext i
  by_cases hi : i = h
  · subst hi
    simp
  · simp [Function.update_of_ne hi]

theorem Kept.modifyHandler (hk : Kept cm) (h : HandlerId) (f : UpstreamHandler σ → UpstreamHandler σ) :
    Kept (cm.modifyHandler h f) := ⟨⟨hk.nodup, hk.known⟩, hk.shared, hk.pending⟩

theorem handlerPoolFailure_follows (cm : ConnectionManager σ α) (h : HandlerId)
    (reason : PoolFailureReason) (host : String) :
    Follows cm (handlerPoolFailure cfg cm h reason host) := by
  obtain ⟨ht, hgone⟩ := foldl_onPoolFailure cfg reason host (cm.handlers h).upstreamRequestCallbacks
    ((cm.modifyHandler h fun hd => { hd with upstreamHandle := false }).delHandler (cm.handlers h).key)
  simp only [handlerPoolFailure]
  generalize (cm.handlers h).upstreamRequestCallbacks.foldl _ _ = cm₁ at ht hgone ⊢
  have hkept : Kept cm →
    Kept ((cm.modifyHandler h fun hd => { hd with upstreamHandle := false }).delHandler
      (cm.handlers h).key) :=
    fun hk => ⟨⟨hk.nodup, hk.known⟩, hk.shared, hk.pending⟩
  refine ⟨fun hk => (ht.kept (hkept hk)).modifyHandler h _, Nat.le_of_eq ht.nextMessage.symm, ht.crashed,
    fun hk hc => .single ?_⟩
  refine .refuse
    (h := h) (hgone (hkept hk) hc) (.of_link (fun i => ?_) ?_ ht.nextHandler ht.active ht.nextMessage)
  · rw [links_modifyHandler]
    by_cases hi : i = h
    · subst hi
      simp [Links.refuse, Links.forget, links, ht.handlers, ConnectionManager.delHandler,
        ConnectionManager.modifyHandler]
    · rw [Links.set_link_of_ne hi]
      simp [Links.refuse, Links.forget, links, ht.handlers, ConnectionManager.delHandler,
        ConnectionManager.modifyHandler, hi, Links.set]
  · show cm₁.handlerManager ⊆ _
    rw [ht.handlerManager]
    exact List.Subset.refl _

theorem foldl_onPoolReady (h : HandlerId) (host : String) (ms : List MsgId) (cm : ConnectionManager σ α) :
    Trimmed cm (ms.foldl (fun cm m => if cm.crashed then cm else onPoolReadyByHandler cfg cm h host
      m) cm) := by
  induction ms generalizing cm with
  | nil => exact .refl cm
  | cons i ms ih =>
    rw [List.foldl_cons]
    split
    · exact ih cm
    · exact (onPoolReadyByHandler_trimmed cfg cm i h host).trans (ih _)

theorem handlerPoolReady_follows (cm : ConnectionManager σ α) (h : HandlerId) (c : ConnId) (host : String) :
    Follows cm (handlerPoolReady cfg cm h c host) := by
  have ht := foldl_onPoolReady cfg h host (cm.handlers h).upstreamRequestCallbacks
    (cm.modifyHandler h fun hd => { hd with conn := some c, upstreamHandle := false, poolReady := true })
  simp only [handlerPoolReady]
  generalize (cm.handlers h).upstreamRequestCallbacks.foldl _ _ = cm₁ at ht ⊢
  refine ⟨fun hk => (ht.kept (hk.modifyHandler h _)).modifyHandler h _,
    Nat.le_of_eq ht.nextMessage.symm, ht.crashed, fun hk hc => ?_⟩
  refine .tail (.single (.connect (links cm) h))
    (.trim (.of_link (fun i => ?_) ?_ ht.nextHandler ht.active ht.nextMessage))
  · rw [links_modifyHandler]
    by_cases hi : i = h
    · subst hi
      simp [Links.connect, links, ht.handlers, ConnectionManager.modifyHandler]
    · rw [Links.set_link_of_ne hi]
      simp [Links.connect, links, ht.handlers, ConnectionManager.modifyHandler, hi, Links.set]
  · show cm₁.handlerManager ⊆ _
    rw [ht.handlerManager]
    exact List.Subset.refl _

end Pool

/-! ## The router -/

/-- If the router asks the pool for a new handler, the pool does not refuse before it returns. -/
def RouterEnv.NotRefused (env : RouterEnv) (cm : ConnectionManager σ α) : Prop :=
  ∀ entry cluster host, env.route = some entry → env.cluster = some cluster → cluster.host = some host →
    cm.handlerManager.lookup (entry.clusterName ++ "_" ++ host) = none → ∀ reason, env.pool ≠ .failure reason

section Router

variable {cfg : Config σ α} {env : RouterEnv} {h : HandlerId}

def startedHandler (key : String) (conn : Option ConnId) : UpstreamHandler σ :=
  { key := key, conn := conn, poolReady := conn.isSome, upstreamHandle := !conn.isSome }

theorem links_withHandler (cm : ConnectionManager σ α) (key : String) (conn : Option ConnId) :
    links (withHandler cm (startedHandler key conn)) = (links cm).create key conn.isSome := by
  simp only [links, withHandler, Links.create, Links.mk.injEq, and_true]
  refine ⟨?_, rfl⟩
  funext i
  by_cases hi : i = cm.nextHandler
  · subst hi
    simp [startedHandler]
  · simp only [Function.update_of_ne hi]

theorem handlerStart_eq (cfg : Config σ α) (cm : ConnectionManager σ α) (key host : String)
    {pool : PoolAnswer} (hpool : ∀ reason, pool ≠ .failure reason) :
    ∃ conn, handlerStart cfg (withHandler cm { key := key }) cm.nextHandler host pool =
      withHandler cm (startedHandler key conn) := by
  cases pool with
  | pending =>
    exact ⟨none, by simp [handlerStart, withHandler, startedHandler, ConnectionManager.modifyHandler]⟩
  | ready c =>
    exact ⟨some c, by
      simp [handlerStart, handlerPoolReady, withHandler, startedHandler, ConnectionManager.modifyHandler]⟩
  | failure reason => exact absurd rfl (hpool reason)

theorem getUpstreamHandler_follows {entry : RouteEntry} {cm' : ConnectionManager σ α}
    (hroute : env.route = some entry)
    (henv : env.NotRefused cm) (hok : getUpstreamHandler cfg cm entry.clusterName env = .ok (h, cm')) :
    Follows cm cm' ∧ (∃ key, (key, h) ∈ cm'.handlerManager) ∧ cm'.messages = cm.messages ∧
      cm'.nextMessage = cm.nextMessage := by
  obtain ⟨cluster, host, hcl, hhost, ⟨hl, rfl⟩ | ⟨hl, rfl, rfl⟩⟩ := getUpstreamHandler_cases cfg hok
  · exact ⟨.refl _, ⟨entry.clusterName ++ "_" ++ host, mem_of_lookup hl⟩, rfl, rfl⟩
  · obtain ⟨conn, hstart⟩ := handlerStart_eq cfg cm (entry.clusterName ++ "_" ++ host) host
      (henv entry cluster host hroute hcl hhost hl)
    rw [hstart]
    refine ⟨⟨fun hk => ⟨⟨hk.nodup, hk.known⟩, hk.shared, hk.pending⟩, Nat.le_refl _, id, fun _ _ => ?_⟩,
      ⟨_, List.mem_cons_self⟩, rfl, rfl⟩
    rw [links_withHandler]
    exact .single (.create ..)

/-- A new request of a known message, which shares the connection of handler `h`. -/
theorem Kept.newUpstreamRequest (hk : Kept cm) (m : MsgId) (h : HandlerId) :
    Kept (newUpstreamRequest cm m (some h)) := by
  refine ⟨⟨hk.nodup, hk.known⟩, fun {i ur} hur => ?_, fun {i} hi => ?_⟩
  · simp only [MetaProtocolProxy.newUpstreamRequest, ConnectionManager.modify, Function.update_apply] at hur
    split at hur
    · obtain rfl := Option.some.inj hur
      exact ⟨rfl, rfl, rfl, rfl⟩
    · exact hk.shared hur
  · simp only [MetaProtocolProxy.newUpstreamRequest, ConnectionManager.modify, Function.update_apply] at hi
    split at hi
    next heq =>
      subst heq
      exact hk.pending hi
    · exact hk.pending hi

theorem links_newUpstreamRequest (cm : ConnectionManager σ α) (m : MsgId) (handler : Option HandlerId) :
    links (newUpstreamRequest cm m handler) = links cm := rfl

theorem addResponseCallback_eq (cm : ConnectionManager σ α) (h : HandlerId) (id : Nat) (m : MsgId) :
    ∃ callbacks, addResponseCallback cm h id m =
      cm.modifyHandler h (fun hd => { hd with responseCallbacks := callbacks }) ∧
      { e | e ∈ callbacks } ⊆ insert (id, m) ((links cm).link h).entries := by
  simp only [addResponseCallback, ConnectionManager.modifyHandler]
  split
  · exact ⟨(cm.handlers h).responseCallbacks, rfl, Set.subset_insert _ _⟩
  · refine ⟨(id, m) :: (cm.handlers h).responseCallbacks, rfl, fun e he => ?_⟩
    rcases List.mem_cons.1 he with rfl | he
    · exact Set.mem_insert _ _
    · exact Set.mem_insert_of_mem _ he

theorem startRequestByHandler_follows {key : String} (hkey : (key, h) ∈ cm.handlerManager)
    (hm : m < cm.nextMessage) (id : Nat) :
    Follows cm (startRequestByHandler cfg (newUpstreamRequest (addResponseCallback cm h id m) m
      (some h)) m h).2 := by
  obtain ⟨callbacks, heq, hentries⟩ := addResponseCallback_eq cm h id m
  have hkept : Kept cm → Kept (newUpstreamRequest (addResponseCallback cm h id m) m (some h)) :=
    fun hk => (hk.modifyHandler h _).newUpstreamRequest m h
  rw [heq] at hkept ⊢
  have hjoin : Links.Move (links cm) ((links cm).join h m { e | e ∈ callbacks }) := .join hkey hm hentries
  have hcm : (newUpstreamRequest
      (cm.modifyHandler h fun hd => { hd with responseCallbacks := callbacks }) m (some h)).handlers h =
      { cm.handlers h with responseCallbacks := callbacks } := Function.update_self ..
  unfold startRequestByHandler
  rw [hcm]
  cases hr : (cm.handlers h).poolReady with
  | true =>
    have hlinks :
        links (newUpstreamRequest (cm.modifyHandler h fun hd => { hd with responseCallbacks := callbacks }) m
          (some h)) = (links cm).join h m { e | e ∈ callbacks } := by
      rw [links_newUpstreamRequest, links_modifyHandler]
      simp only [Links.join, links, hr, if_true]
    have h₁ : Follows cm
        (newUpstreamRequest (cm.modifyHandler h fun hd => { hd with responseCallbacks := callbacks }) m
        (some h)) := ⟨hkept, Nat.le_refl _, fun hc => hc, fun _ _ => .single (hlinks ▸ hjoin)⟩
    have h₂ := h₁.trans (encodeDataByHandler_trimmed cfg _ m h).follows
    simp only [if_true]
    generalize encodeDataByHandler cfg _ h m = r at h₂ ⊢
    rcases r with ⟨e | u, cm'⟩
    · exact h₂
    · exact h₂
  | false =>
    simp only [Bool.false_eq_true, if_false]
    refine ⟨fun hk => (hkept hk).modifyHandler h _, Nat.le_refl _, fun hc => hc, fun _ _ => .single ?_⟩
    have hlinks :
        links ((newUpstreamRequest (cm.modifyHandler h fun hd => { hd with responseCallbacks := callbacks }) m
          (some h)).modifyHandler h fun hd =>
            { hd with upstreamRequestCallbacks := hd.upstreamRequestCallbacks ++ [m] }) =
          (links cm).join h m { e | e ∈ callbacks } := by
      rw [links_modifyHandler, hcm]
      rw [links_newUpstreamRequest, links_modifyHandler]
      have hwaiting : { i | i ∈ (cm.handlers h).upstreamRequestCallbacks ++ [m] } =
          insert m { i | i ∈ (cm.handlers h).upstreamRequestCallbacks } := by
        ext i
        simp [or_comm]
      simp only [Links.join, Links.set, Function.update_idem, hwaiting, links, hr,
        Bool.false_eq_true, if_false]
    rw [hlinks]
    exact hjoin

theorem routerDecoded_follows (hmux : cfg.multiplexing = true) (hm : m < cm.nextMessage)
    (henv : env.NotRefused cm) : Follows cm (routerDecoded cfg cm m env).2 := by
  unfold routerDecoded
  cases hroute : env.route with
  | none => exact (sendLocalReply_settles cfg cm m _).trimmed.follows
  | some entry =>
    have h₁ : Trimmed cm (cm.modify m fun a => { a with mutation := a.mutation.set entry.requestMutation }) :=
      .modify cm m (fun a ur hur => ⟨ur, hur, id⟩) fun a ha => ha
    simp only [hmux, if_true]
    generalize (cm.modify m fun a => { a with mutation := a.mutation.set entry.requestMutation }) =
      cm₁ at h₁ ⊢
    have henv₁ : env.NotRefused cm₁ := by
      unfold RouterEnv.NotRefused
      rw [h₁.handlerManager]
      exact henv
    cases hget : getUpstreamHandler cfg cm₁ entry.clusterName env with
    | error e => exact (h₁.trans (sendLocalReply_settles cfg cm₁ m e).trimmed).follows
    | ok r =>
      obtain ⟨h, cm₂⟩ := r
      obtain ⟨h₂, ⟨key, hkey⟩, -, hnext⟩ := getUpstreamHandler_follows hroute henv₁ hget
      refine (h₁.follows.trans h₂).trans (startRequestByHandler_follows hkey ?_ _)
      rw [hnext, h₁.nextMessage]
      exact hm

theorem applyDecoderFilters_follows (hmux : cfg.multiplexing = true) (hm : m < cm.nextMessage)
    (henv : env.NotRefused cm)
    (filters : List DecoderVerdict) : Follows cm (applyDecoderFilters cfg cm m filters env).2 := by
  refine applyDecoderFilters_preserves cfg (P := Trimmed cm)
    (Q := fun r => Follows cm r.2) (fun v _ cm₁ h₁ => ?_)
    (fun error cm₁ h₁ => ?_) (fun _ _ h₁ => h₁.follows) (fun cm₁ h₁ => ?_) (fun _ _ h₁ => h₁) (.refl cm)
  · exact h₁.trans (.modify cm₁ m (fun a ur hur => ⟨ur, hur, id⟩) fun a ha => ha)
  · exact h₁.trans (sendLocalReply_settles ..).trimmed
  · refine h₁.follows.trans (routerDecoded_follows hmux (h₁.nextMessage ▸ hm) ?_)
    unfold RouterEnv.NotRefused
    rw [h₁.handlerManager]
    exact henv

end Router

/-! ## The events -/

section Events

variable {cfg : Config σ α} {h : HandlerId}

/-- The downstream connection is closed: every message is reset, and no request is given a
handler. -/
theorem onDownstreamClose_follows (cm : ConnectionManager σ α) : Follows cm (onDownstreamClose cm) := by
  have ht := Trimmed.resetAllMessages cm
  refine ht.follows.trans ⟨fun hk => ⟨⟨hk.nodup, hk.known⟩, hk.shared, hk.pending⟩, Nat.le_refl _,
    id, fun _ _ => .single ?_⟩
  exact .trim (.of_link (fun _ => rfl) (List.nil_subset _) rfl subset_rfl rfl)

theorem dispatchFailed_follows (cm : ConnectionManager σ α) (e : Failure) :
    Follows cm (dispatchFailed cm e) := by
  unfold dispatchFailed
  split
  · exact onDownstreamClose_follows cm
  · exact (Trimmed.crash cm).follows

theorem afterDecoderFilters_follows (hm : m < cm.nextMessage) (status : FilterStatus) :
    Follows cm (afterDecoderFilters cm m status) := by
  cases status with
  | pauseIteration =>
    refine ⟨fun hk => ⟨⟨hk.nodup, hk.known⟩, fun {i ur} hur => ?_, fun {i} hi => ?_⟩, Nat.le_refl _,
      id, fun _ _ => .refl⟩
    · simp only [afterDecoderFilters, ConnectionManager.modify, Function.update_apply] at hur
      split at hur <;> exact hk.shared hur
    · simp only [afterDecoderFilters, ConnectionManager.modify, Function.update_apply] at hi
      split at hi
      next heq => exact heq ▸ hm
      · exact hk.pending hi
  | abortIteration => exact (Settles.deferredDeleteMessage cm m).trimmed.follows
  | continueIteration => exact (maybeDeferredDeleteMessage_settles cm m).trimmed.follows
  | retry => exact (Trimmed.crash cm).follows

theorem newMessage_follows (cm : ConnectionManager σ α) (md : Metadata α) (encoders : List EncoderVerdict) :
    Follows cm (newMessage cm md encoders) := by
  refine ⟨fun hk => ⟨hk.toListed.newMessage md encoders, fun {i ur} hur => ?_, fun {i} hi => ?_⟩,
    Nat.le_succ _, id, fun _ _ => .single ?_⟩
  · simp only [newMessage, Function.update_apply] at hur
    split at hur
    · cases hur
    · exact hk.shared hur
  · simp only [newMessage, Function.update_apply] at hi
    split at hi
    · cases hi
    · exact Nat.lt_succ_of_lt (hk.pending hi)
  · have hlinks : links (newMessage cm md encoders) = (links cm).accept := by
      simp only [links, newMessage, Links.accept, Links.mk.injEq, and_true, true_and]
      ext i
      simp
    rw [hlinks]
    exact .accept _

theorem onMessageDecoded_follows (hmux : cfg.multiplexing = true) (md : Metadata α)
    (encoders : List EncoderVerdict)
    (filters : List DecoderVerdict) {env : RouterEnv} (henv : env.NotRefused cm) :
    Follows cm (onMessageDecoded cfg cm md encoders filters env).2 := by
  have h₁ := newMessage_follows cm (md.putString applicationProtocol cfg.applicationProtocol) encoders
  have hm : cm.nextMessage <
    (newMessage cm (md.putString applicationProtocol cfg.applicationProtocol) encoders).nextMessage :=
    Nat.lt_succ_self _
  have hfilters :
      ∀ cm₁, Trimmed (newMessage cm (md.putString applicationProtocol cfg.applicationProtocol) encoders) cm₁ →
        (∀ e cm₂, applyDecoderFilters cfg cm₁ cm.nextMessage filters env = (.error e, cm₂) → Follows cm cm₂) ∧
        ∀ status cm₂, applyDecoderFilters cfg cm₁ cm.nextMessage filters env = (.ok status, cm₂) →
          Follows cm (afterDecoderFilters cm₂ cm.nextMessage status) := by
    intro cm₁ ht
    have henv₁ : env.NotRefused cm₁ := by
      unfold RouterEnv.NotRefused
      rw [ht.handlerManager]
      exact henv
    have h₂ := applyDecoderFilters_follows hmux (ht.nextMessage ▸ hm) henv₁ filters
    constructor
    · intro e cm₂ hr
      rw [hr] at h₂
      exact (h₁.trans ht.follows).trans h₂
    · intro status cm₂ hr
      rw [hr] at h₂
      refine ((h₁.trans ht.follows).trans h₂).trans (afterDecoderFilters_follows ?_ status)
      exact Nat.lt_of_lt_of_le (ht.nextMessage ▸ hm) h₂.nextMessage
  have hforward : ∀ closesClient closesServer, Follows cm (maybeDeferredDeleteMessage (forwardToStream
      (newMessage cm (md.putString applicationProtocol cfg.applicationProtocol) encoders)
        cm.nextMessage closesClient
      closesServer) cm.nextMessage) := by
    intro closesClient closesServer
    exact h₁.trans
      ((forwardToStream_trimmed ..).trans (maybeDeferredDeleteMessage_settles ..).trimmed).follows
  simp only [onMessageDecoded]
  cases md.messageType with
  | request =>
    dsimp only
    split
    next hr => exact (hfilters _ (.refl _)).1 _ _ hr
    next hr => exact (hfilters _ (.refl _)).2 _ _ hr
  | streamInit =>
    dsimp only
    split
    next hr => exact (hfilters _ (newActiveStream_trimmed ..)).1 _ _ hr
    next hr => exact (hfilters _ (newActiveStream_trimmed ..)).2 _ _ hr
  | streamData => exact hforward false false
  | streamCloseOneWay => exact hforward true false
  | streamCloseTwoWay => exact hforward true true
  | _ => exact h₁.trans (maybeDeferredDeleteMessage_settles ..).trimmed.follows

theorem resumeFilters_follows (hmux : cfg.multiplexing = true) (hm : m < cm.nextMessage)
    (filters : List DecoderVerdict)
    {env : RouterEnv} (henv : env.NotRefused cm) : Follows cm (resumeFilters cfg cm m filters env) := by
  have h := applyDecoderFilters_follows hmux hm henv filters
  unfold resumeFilters
  generalize applyDecoderFilters cfg cm m filters env = r at h ⊢
  rcases r with ⟨e | status, cm'⟩
  · exact h.trans (Trimmed.crash cm').follows
  · dsimp only
    split
    · exact h.trans (continueDecoding_settles cm' m).trimmed.follows
    · exact h

theorem modifyHandler_follows (cm : ConnectionManager σ α) (h : HandlerId)
    {f : UpstreamHandler σ → UpstreamHandler σ}
    (hf : ∀ hd, ∃ response, f hd = { hd with upstreamResponse := response }) :
    Follows cm (cm.modifyHandler h f) := by
  refine ⟨fun hk => hk.modifyHandler h f, Nat.le_refl _, id, fun _ _ => .single (.trim ?_)⟩
  obtain ⟨response, hfh⟩ := hf (cm.handlers h)
  rw [links_modifyHandler, hfh]
  exact .set (.refl _ _)

theorem handlerMessageDecoded_follows (cm : ConnectionManager σ α) (h : HandlerId) (md : Metadata α) :
    Follows cm (handlerMessageDecoded cm h md) := by
  have h₁ := Trimmed.emit cm (.handlerResponse h md)
  simp only [handlerMessageDecoded]
  split
  · exact h₁.follows
  next m _ =>
    have h₂ := (h₁.trans (.emit _ (.callback h md.requestId m))).trans
      (onUpstreamResponseCallback_settles _ m id).trimmed
    refine h₂.follows.trans ⟨fun hk => hk.modifyHandler h _, Nat.le_refl _, id, fun _ _ => .single (.trim ?_)⟩
    generalize onUpstreamResponseCallback _ m = cm₁
    rw [links_modifyHandler]
    exact .set ⟨rfl, rfl, rfl, rfl, subset_rfl, fun _ hm _ => hm, fun e he => List.mem_of_mem_filter he⟩

theorem handlerUpstreamData_follows (cfg : Config σ α) (cm : ConnectionManager σ α) (h : HandlerId)
    (data : Bytes) (garbage : Bool) : Follows cm (handlerUpstreamData cfg cm h data garbage).1 := by
  refine handlerUpstreamData_preserves cfg h ?_ ?_ ?_ (Trimmed.refl cm).follows data garbage
  · intro cm₁ f h₁
    exact h₁.trans (modifyHandler_follows cm₁ h fun hd => ⟨_, rfl⟩)
  · intro cm₁ md h₁
    exact h₁.trans (handlerMessageDecoded_follows ..)
  · intro cm₁ h₁
    exact h₁.trans (Trimmed.crash cm₁).follows

theorem destroy_follows (hk : Kept cm) (hm : m ∈ cm.deferred) :
    Follows cm { onDestroy cfg cm m with deferred := (onDestroy cfg cm m).deferred.erase m } := by
  -- only a request that waits leaves anything behind in a handler
  have herase : ∀ cm₁, Follows cm cm₁ → Follows cm { cm₁ with deferred := cm₁.deferred.erase m } := by
    intro cm₁ h
    exact h.trans ⟨fun hk => ⟨hk.toListed.erase m, hk.shared, hk.pending⟩, Nat.le_refl _, id,
      fun _ _ => .refl⟩
  refine herase _ ?_
  unfold onDestroy
  cases hur : (cm.messages m).upstreamRequest with
  | none => exact .refl cm
  | some ur =>
    obtain ⟨h, hh⟩ := Option.isSome_iff_exists.1 (hk.shared hur).handler
    have h₁ : Follows cm (cm.modifyHandler h fun hd =>
        { hd with upstreamRequestCallbacks := hd.upstreamRequestCallbacks.filter (· != m) }) := by
      refine ⟨fun hk => hk.modifyHandler h _, Nat.le_refl _, fun hc => hc, fun _ _ => .single (.trim ?_)⟩
      rw [links_modifyHandler]
      refine .set ⟨rfl, rfl, rfl, rfl, fun i hi => List.mem_of_mem_filter hi, fun i hi hlive => ?_,
        subset_rfl⟩
      have hne : i ≠ m := by
        rintro rfl
        exact (List.nodup_append.1 hk.nodup).2.2 i hlive i hm rfl
      exact List.mem_filter.2 ⟨hi, by simpa using hne⟩
    simp only [releaseUpStreamConnection, hur, hh]
    refine h₁.trans (Trimmed.follows ?_)
    have hur₁ : ((cm.modifyHandler h fun hd =>
        { hd with upstreamRequestCallbacks := hd.upstreamRequestCallbacks.filter (· != m) }).messages
          m).upstreamRequest = some ur := hur
    simp only [cleanUpstreamRequest, hur₁, (hk.shared hur).conn]
    exact .modify _ m (fun a u hu => by cases hu) fun a ha => ha

/-- The condition on the pool, for an event. -/
def NotRefusedAtOnce (cm : ConnectionManager σ α) : Event α → Prop
  | .decoded _ _ _ env => env.NotRefused cm
  | .continueDecoding _ _ env => env.NotRefused cm
  | _ => True

theorem links_handlerClose (cm : ConnectionManager σ α) (h : HandlerId) :
    links (handlerClose cm h) = (links cm).close h := by
  simp only [handlerClose, links_modifyHandler]
  rfl

/-- **Every event but a close event of a handler's connection moves the links.** -/
theorem step_follows (hmux : cfg.multiplexing = true) (hk : Kept cm) {e : Event α} (hen : Enabled cm e)
    (henv : NotRefusedAtOnce cm e) (hclose : ∀ h event, e ≠ .handlerEvent h event) :
    Follows cm (step cfg cm e) := by
  cases e with
  | decoded md encoders filters env =>
    have h := onMessageDecoded_follows hmux md encoders filters henv
    simp only [step]
    generalize onMessageDecoded cfg cm md encoders filters env = r at h ⊢
    rcases r with ⟨e | u, cm'⟩
    · exact h.trans (dispatchFailed_follows cm' e)
    · exact h
  | continueDecoding m filters env => exact resumeFilters_follows hmux (hk.pending hen.2.1) filters henv
  | poolReady m c host =>
    obtain ⟨ur, hur, hhandle⟩ := hen.2
    simp [(hk.shared hur).handle] at hhandle
  | poolFailure m reason host =>
    obtain ⟨ur, hur, hhandle⟩ := hen.2
    simp [(hk.shared hur).handle] at hhandle
  | upstreamData m data endStream =>
    obtain ⟨-, ur, c, hur, hconn, -⟩ := hen.2
    simp [(hk.shared hur).conn] at hconn
  | upstreamEvent m event =>
    obtain ⟨-, ur, c, hur, hconn, -⟩ := hen.2
    simp [(hk.shared hur).conn] at hconn
  | handlerPoolReady h c host => exact handlerPoolReady_follows cfg cm h c host
  | handlerPoolFailure h reason host => exact handlerPoolFailure_follows cfg cm h reason host
  | handlerData h data garbage => exact handlerUpstreamData_follows cfg cm h data garbage
  | handlerEvent h event => exact absurd rfl (hclose h event)
  | downstreamEvent event => exact onDownstreamClose_follows cm
  | downstreamEnd =>
    have ht := (Trimmed.resetAllMessages cm).trans (clearStream_trimmed _)
    exact ht.follows.trans ⟨fun hk => ⟨⟨hk.nodup, hk.known⟩, hk.shared, hk.pending⟩, Nat.le_refl _,
      id, fun _ _ => .refl⟩
  | idleTimeout =>
    exact ((Trimmed.resetAllMessages cm).trans (clearStream_trimmed _)).follows.trans
      (onDownstreamClose_follows _)
  | destroy m => exact destroy_follows hk hen.2

end Events

end MetaProtocolProxy
