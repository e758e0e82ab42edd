import MetaProtocolProxy.Proxy.Lingering
import Mathlib.Data.List.Count
import Mathlib.Data.List.Nodup
import Mathlib.Data.List.Perm.Subperm
/-
# Who owns a message (conn_manager.cc, active_message.cc)

`newMessageHandler` puts a new `ActiveMessage` on `active_message_list_`, `deferredDeleteMessage`
takes it off and hands it to the dispatcher if it is still `inserted()`, and the dispatcher destroys
it. Here every message is accounted for over a whole run: it is on the list, or has been handed over
once and waits for the dispatcher, or has been handed over once and is gone.

| here | there |
| --- | --- |
| `handedBy`, `handedIn` | the calls of `dispatcher().deferredDelete` (conn_manager.cc:200) |
| `requestActive` | the gauge `request_active`, incremented by the constructor and decremented by the destructor |
| `Closes` | the places that close the downstream connection and reset every message |
-/
namespace MetaProtocolProxy

variable {σ α : Type}

/-- What a connection manager meets: the events of `step`, and bytes for which the codec throws in
`dispatch` before there is a message (conn_manager.cc:115-132). -/
inductive ManagerEvent (α : Type)
  | event (e : Event α)
  | decodeError (e : Failure)

/-- How often `newMessageHandler` runs. -/
def ManagerEvent.creates : ManagerEvent α → Nat
  | .event (.decoded ..) => 1
  | _ => 0

def ManagerEvent.destroys : ManagerEvent α → List MsgId
  | .event (.destroy m) => [m]
  | _ => []

def destroyedIn (es : List (ManagerEvent α)) : List MsgId := es.flatMap ManagerEvent.destroys

/-- `request_active` after the events. -/
def requestActive (es : List (ManagerEvent α)) : Int :=
  es.foldl (fun n e => n + e.creates - e.destroys.length) 0

/-- The dispatcher destroys what was handed to it. -/
def DestroysDeferred (cm : ConnectionManager σ α) (e : ManagerEvent α) : Prop :=
  ∀ m ∈ e.destroys, m ∈ cm.deferred

section Runs

variable (cfg : Config σ α)

def managerStep (cm : ConnectionManager σ α) : ManagerEvent α → ConnectionManager σ α
  | .event e => step cfg cm e
  | .decodeError e => dispatchFailed cm e

/-- The event closes the connection: the idle timeout, the end of the client's data, a close event,
and an exception that `dispatch` catches. -/
def Closes (cm : ConnectionManager σ α) : ManagerEvent α → Prop
  | .event .idleTimeout | .event .downstreamEnd | .event (.downstreamEvent _) => True
  | .event (.decoded md encoders filters env) =>
    ∃ e cm', onMessageDecoded cfg cm md encoders filters env = (.error e, cm') ∧ e.isEnvoyException = true
  | .decodeError e => e.isEnvoyException = true
  | _ => False

/-- The messages an event hands to `deferredDelete`: each call appends one to `deferred`, and only
the dispatcher takes one out. -/
def handedBy (cm : ConnectionManager σ α) (e : ManagerEvent α) : List MsgId :=
  ((managerStep cfg cm e).deferred ++ e.destroys).diff cm.deferred

/-- The messages handed over in a run, in order. -/
def handedIn (cm : ConnectionManager σ α) : List (ManagerEvent α) → List MsgId
  | [] => []
  | e :: es => handedBy cfg cm e ++ handedIn (managerStep cfg cm e) es

end Runs

variable {cfg : Config σ α} {cm cm' : ConnectionManager σ α} {S : Set MsgId} {B : Prop}

theorem handedIn_concat (cm : ConnectionManager σ α) (es : List (ManagerEvent α)) (e : ManagerEvent α) :
    handedIn cfg cm (es ++ [e]) =
      handedIn cfg cm es ++ handedBy cfg (Runs.run (managerStep cfg) cm es) e := by
  induction es generalizing cm with
  | nil => simp [handedIn]
  | cons f es ih => simp [handedIn, ih]

theorem destroyedIn_concat (es : List (ManagerEvent α)) (e : ManagerEvent α) :
    destroyedIn (es ++ [e]) = destroyedIn es ++ e.destroys := by
  simp [destroyedIn]

theorem requestActive_concat (es : List (ManagerEvent α)) (e : ManagerEvent α) :
    requestActive (es ++ [e]) = requestActive es + e.creates - e.destroys.length := by
  simp [requestActive]

/-! ## One event -/

/-- From `cm` to `cm'` the messages are created, handed over and destroyed as `e` says. -/
structure Conserved (e : ManagerEvent α) (cm cm' : ConnectionManager σ α) : Prop where
  created : List.range cm'.nextMessage = List.range cm.nextMessage ++ List.replicate e.creates cm.nextMessage
  place : ∀ m, cm'.activeMessageList.count m + cm'.deferred.count m + e.destroys.count m =
    cm.activeMessageList.count m + cm.deferred.count m + (List.replicate e.creates cm.nextMessage).count m
  /-- Only the dispatcher takes a message out of `deferred`. -/
  deferred : ∀ m, cm.deferred.count m ≤ cm'.deferred.count m + e.destroys.count m
  length : cm'.activeMessageList.length + cm'.deferred.length + e.destroys.length =
    cm.activeMessageList.length + cm.deferred.length + e.creates

theorem Touches.count_lists (h : Touches S B cm cm') (m : MsgId) :
    cm'.activeMessageList.count m + cm'.deferred.count m =
      cm.activeMessageList.count m + cm.deferred.count m := by
  rw [← List.count_append, ← List.count_append, h.perm.count_eq]

theorem Touches.length_lists (h : Touches S B cm cm') :
    cm'.activeMessageList.length + cm'.deferred.length =
      cm.activeMessageList.length + cm.deferred.length := by
  rw [← List.length_append, ← List.length_append, h.perm.length_eq]

/-- The list only shrinks, so what leaves it is found in `deferred`. -/
theorem Touches.count_deferred_le (h : Touches S B cm cm') (hl : Listed cm) (m : MsgId) :
    cm.deferred.count m ≤ cm'.deferred.count m := by
  have hnd : cm'.activeMessageList.Nodup := (List.nodup_append.1 (hl.of_touches h).nodup).1
  have hle : cm'.activeMessageList.count m ≤ cm.activeMessageList.count m := (hnd.subperm h.active).count_le m
  have hsum := h.count_lists m
  omega

theorem Touches.conserved (h : Touches S B cm cm') (hl : Listed cm) {e : ManagerEvent α} (hc : e.creates = 0)
    (hd : e.destroys = []) : Conserved e cm cm' where
  created := by simp [h.nextMessage, hc]
  place m := by simpa [hc, hd] using h.count_lists m
  deferred m := by simpa [hd] using h.count_deferred_le hl m
  length := by simpa [hc, hd] using h.length_lists

theorem decoded_conserved (hl : Listed cm) (md : Metadata α) (encoders : List EncoderVerdict)
    (filters : List DecoderVerdict) (env : RouterEnv) :
    Conserved (.event (.decoded md encoders filters env)) cm
      (step cfg cm (.decoded md encoders filters env)) := by
  obtain ⟨S, h, -⟩ := decoded_touches cfg cm md encoders filters env
  have hactive : (enlisted cfg cm md encoders).activeMessageList =
    [cm.nextMessage] ++ cm.activeMessageList := rfl
  have hdeferred : (enlisted cfg cm md encoders).deferred = cm.deferred := rfl
  refine ⟨?_, fun m => ?_, h.count_deferred_le (hl.enlisted cfg md encoders), ?_⟩
  · rw [h.nextMessage]
    exact List.range_succ
  · have hsum := h.count_lists m
    rw [hactive, hdeferred, List.count_append] at hsum
    simp only [ManagerEvent.destroys, ManagerEvent.creates, List.count_nil, List.replicate_one]
    omega
  · have hlen := h.length_lists
    rw [hactive, hdeferred, List.length_append, List.length_singleton] at hlen
    simp only [ManagerEvent.destroys, ManagerEvent.creates, List.length_nil]
    omega

theorem destroy_conserved (hl : Listed cm) {m : MsgId} (hm : m ∈ cm.deferred) :
    Conserved (.event (.destroy m)) cm (step cfg cm (.destroy m)) := by
  have h := onDestroy_touches (B := False) cfg cm m
  have hmem : m ∈ (onDestroy cfg cm m).deferred :=
    List.count_pos_iff.1 (Nat.lt_of_lt_of_le (List.count_pos_iff.2 hm) (h.count_deferred_le hl m))
  have hperm : (onDestroy cfg cm m).deferred.Perm ([m] ++ (onDestroy cfg cm m).deferred.erase m) :=
    List.perm_cons_erase hmem
  have herase :
    ∀ i, (onDestroy cfg cm m).deferred.count i =
      [m].count i + ((onDestroy cfg cm m).deferred.erase m).count i :=
    fun i => (hperm.count_eq i).trans List.count_append
  refine ⟨?_, fun i => ?_, fun i => ?_, ?_⟩
  · exact (congrArg List.range h.nextMessage).trans (List.append_nil _).symm
  · have hsum := h.count_lists i
    rw [herase i] at hsum
    simp only [step, ManagerEvent.destroys, ManagerEvent.creates, List.replicate_zero, List.count_nil]
    omega
  · have hle := h.count_deferred_le hl i
    rw [herase i] at hle
    simp only [step, ManagerEvent.destroys]
    omega
  · have hsum := h.length_lists
    rw [hperm.length_eq, List.length_append] at hsum
    simp only [step, ManagerEvent.destroys, ManagerEvent.creates]
    omega

theorem dispatchFailed_touches (cm : ConnectionManager σ α) (e : Failure) :
    Touches { i | i ∈ cm.activeMessageList } False cm (dispatchFailed cm e) := by
  unfold dispatchFailed
  split
  · exact onDownstreamClose_touches cm
  · exact .crash ..

theorem managerStep_conserved (hl : Listed cm) {e : ManagerEvent α} (he : DestroysDeferred cm e) :
    Conserved e cm (managerStep cfg cm e) := by
  cases e with
  | decodeError e => exact (dispatchFailed_touches cm e).conserved hl rfl rfl
  | event e =>
    obtain ⟨md, encoders, filters, env, rfl⟩ | ⟨m, rfl⟩ | hs := e.new_or_destroy_or_service
    · exact decoded_conserved hl md encoders filters env
    · exact destroy_conserved hl (he m List.mem_cons_self)
    · have h := step_touches cfg cm hs
      cases e with
      | decoded | destroy => exact hs.elim
      | _ => exact h.conserved hl rfl rfl

theorem managerStep_listed (hl : Listed cm) (e : ManagerEvent α) : Listed (managerStep cfg cm e) := by
  cases e with
  | event e => exact step_listed cfg hl e
  | decodeError e => exact hl.of_touches (dispatchFailed_touches cm e)

theorem managerStep_active (cm : ConnectionManager σ α) {e : ManagerEvent α} (he : e.creates = 0) :
    (managerStep cfg cm e).activeMessageList ⊆ cm.activeMessageList := by
  cases e with
  | decodeError e => exact (dispatchFailed_touches cm e).active
  | event e =>
    obtain ⟨md, encoders, filters, env, rfl⟩ | ⟨m, rfl⟩ | hs := e.new_or_destroy_or_service
    · cases he
    · exact (onDestroy_touches (B := False) cfg cm m).active
    · exact (step_touches cfg cm hs).active

theorem Closes.emptied {e : ManagerEvent α} (h : Closes cfg cm e) :
    (managerStep cfg cm e).activeMessageList = [] := by
  have hfailed : ∀ {cm : ConnectionManager σ α} {e : Failure}, e.isEnvoyException = true →
      (dispatchFailed cm e).activeMessageList = [] := by
    intro cm e he
    rw [dispatchFailed, if_pos he]
    rfl
  cases e with
  | decodeError e => exact hfailed h
  | event e =>
    cases e with
    | idleTimeout | downstreamEvent => rfl
    | downstreamEnd =>
      exact List.subset_nil.1 (clearStream_touches (S := ∅) (B := False) cm.resetAllMessages).active
    | decoded md encoders filters env =>
      obtain ⟨e, cm', hthrow, he⟩ := h
      simp only [managerStep, step, hthrow]
      exact hfailed he
    | _ => exact h.elim

/-! ## Whole runs -/

/-- The accounts after the events `past`: a message that has been created is on the list, waits for
the dispatcher or has been destroyed, and the last two have been handed over. -/
structure Accounts (cfg : Config σ α) (past : List (ManagerEvent α)) (cm : ConnectionManager σ α) : Prop where
  reached : cm = Runs.run (managerStep cfg) {} past
  listed : Listed cm
  place : ∀ m, cm.activeMessageList.count m + cm.deferred.count m + (destroyedIn past).count m =
    (List.range cm.nextMessage).count m
  handed : ∀ m, (handedIn cfg {} past).count m = cm.deferred.count m + (destroyedIn past).count m
  gauge : requestActive past = cm.activeMessageList.length + cm.deferred.length

theorem accounts_init : Accounts cfg [] ({} : ConnectionManager σ α) :=
  ⟨rfl, listed_init, fun _ => rfl, fun _ => rfl, rfl⟩

theorem managerStep_accounts {past : List (ManagerEvent α)} {e : ManagerEvent α} (ha : Accounts cfg past cm)
    (he : DestroysDeferred cm e) : Accounts cfg (past ++ [e]) (managerStep cfg cm e) := by
  have hc : Conserved e cm (managerStep cfg cm e) := managerStep_conserved ha.listed he
  refine ⟨?_, managerStep_listed ha.listed e, fun m => ?_, fun m => ?_, ?_⟩
  · rw [Runs.run_append, ← ha.reached]
    rfl
  · have hold := ha.place m
    have hnew := hc.place m
    rw [destroyedIn_concat, List.count_append, hc.created, List.count_append]
    omega
  · have hold := ha.handed m
    have hgrow := hc.deferred m
    rw [handedIn_concat, ← ha.reached, handedBy, destroyedIn_concat]
    simp only [List.count_append, List.count_diff]
    omega
  · have hold := ha.gauge
    have hlen := hc.length
    rw [requestActive_concat]
    omega

/-- What holds of the messages of a connection after the events `es`. -/
structure Ownership (cfg : Config σ α) (es : List (ManagerEvent α)) : Prop where
  /-- No message is handed to `deferredDelete` twice. -/
  once : ∀ m, (handedIn cfg {} es).count m ≤ 1
  /-- `request_active` is the number of messages created and not destroyed. -/
  gauge : requestActive es =
    (((List.range (Runs.run (managerStep cfg) {} es).nextMessage).filter fun m =>
      m ∉ destroyedIn es).length : Int)
  /-- Once the connection is closed the list is empty and every message has been handed over. -/
  closed : ∀ pre e later, es = pre ++ e :: later → Closes cfg (Runs.run (managerStep cfg) {} pre) e →
    (∀ f ∈ later, f.creates = 0) → (Runs.run (managerStep cfg) {} es).activeMessageList = [] ∧
      ∀ m < (Runs.run (managerStep cfg) {} es).nextMessage, (handedIn cfg {} es).count m = 1

theorem Accounts.alive {past : List (ManagerEvent α)} (ha : Accounts cfg past cm) :
    ((List.range cm.nextMessage).filter fun m => m ∉ destroyedIn past).Perm
      (cm.activeMessageList ++ cm.deferred) := by
  refine (List.perm_ext_iff_of_nodup (List.nodup_range.filter _) ha.listed.nodup).2 fun m => ?_
  have hplace := ha.place m
  have hle : (List.range cm.nextMessage).count m ≤ 1 := List.nodup_iff_count_le_one.1 List.nodup_range m
  rw [List.mem_filter,
    decide_eq_true_iff, ← List.count_pos_iff, ← List.count_pos_iff, ← List.count_pos_iff, List.count_append]
  omega

theorem run_emptied {later : List (ManagerEvent α)} (hempty : cm.activeMessageList = [])
    (hlater : ∀ f ∈ later, f.creates = 0) :
    (Runs.run (managerStep cfg) cm later).activeMessageList = [] := by
  induction later generalizing cm with
  | nil => exact hempty
  | cons f later ih =>
    have hsub : (managerStep cfg cm f).activeMessageList ⊆ cm.activeMessageList :=
      managerStep_active cm (hlater f List.mem_cons_self)
    rw [hempty] at hsub
    exact ih (List.subset_nil.1 hsub) fun g hg => hlater g (List.mem_cons_of_mem f hg)

/-- In every run, whatever the order of its events: a message is handed to `deferredDelete` at most
once, and exactly once by the time the connection is closed, when the list is empty;
`request_active` counts the messages that are alive. -/
theorem message_ownership (cfg : Config σ α) (es : List (ManagerEvent α))
    (hrun : Runs.Guarded (managerStep cfg) DestroysDeferred {} es) : Ownership cfg es := by
  have ha : Accounts cfg es (Runs.run (managerStep cfg) {} es) :=
    hrun.history (I := Accounts cfg) (fun _ _ _ ha he => managerStep_accounts ha he) accounts_init
  refine ⟨fun m => ?_, ?_, fun pre e later hes hcloses hlater => ?_⟩
  · have hplace := ha.place m
    have hle : (List.range (Runs.run (managerStep cfg) {} es).nextMessage).count m ≤ 1 :=
      List.nodup_iff_count_le_one.1 List.nodup_range m
    rw [ha.handed m]
    omega
  · rw [ha.gauge, ha.alive.length_eq, List.length_append, Int.natCast_add]
  · have hempty : (Runs.run (managerStep cfg) {} es).activeMessageList = [] := by
      rw [hes, Runs.run_append, Runs.run_cons]
      exact run_emptied hcloses.emptied hlater
    refine ⟨hempty, fun m hm => ?_⟩
    have hplace := ha.place m
    rw [hempty, List.count_nil, List.count_eq_one_of_mem List.nodup_range (List.mem_range.2 hm)] at hplace
    rw [ha.handed m]
    omega

section Concrete

/-- A request, a one-way message, bytes that are no message, and the dispatcher's turn. -/
def brokenOff : List (ManagerEvent Unit) :=
  [.event (messageOf .request), .event (messageOf .oneway),
    .decodeError (.envoyException "meta protocol error"), .event (.destroy 1)]

/-- The one-way message is handed over when it has been handled, the request when the connection is
closed. -/
theorem message_ownership_brokenOff :
    Ownership trpcConfig brokenOff ∧ handedIn trpcConfig {} brokenOff = [1, 0] ∧
      requestActive brokenOff = 1 := by
  have hrun : Runs.Guarded (managerStep trpcConfig) DestroysDeferred {} brokenOff := by
    refine ⟨fun m hm => ?_, fun m hm => ?_, fun m hm => ?_, fun m hm => ?_, trivial⟩
    · cases hm
    · cases hm
    · cases hm
    · cases List.mem_singleton.1 hm
      exact List.mem_cons_self
  exact ⟨message_ownership trpcConfig brokenOff hrun, rfl, rfl⟩

end Concrete

end MetaProtocolProxy
