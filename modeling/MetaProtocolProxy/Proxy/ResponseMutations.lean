import MetaProtocolProxy.Proxy.Replies
import MetaProtocolProxy.Route.Matcher
/-
# The mutations of responses (active_message.cc:43-119, route_matcher_impl.cc:82-92)

A route may have entries to set in its requests and entries to set in its responses. The router
applies the first before it forwards a request. Nobody calls `responseMutation`: what `encode` gets
for a response is the map the encoder filters have made of an empty one. It is the map the route
asks for just when the filters happen to have set all its entries (`response_mutation_applied_iff`).
-/
namespace MetaProtocolProxy

open Route (MatchedRoute HeaderUtility RouteMatcherImpl)

variable {σ α M D H : Type}

/-- A call of `encode`. -/
structure EncodeCall (α : Type) where
  metadata : Metadata α
  mutation : Mutation
  originMessage : Bytes

section Calls

variable (cm : ConnectionManager σ α) (m : MsgId) (md : Metadata α)

/-- The call of `encode` that `ActiveResponseDecoder::onMessageDecoded` makes for a response, if it
comes to one. -/
def responseEncodeCall : Option (EncodeCall α) :=
  match encoderFilters (cm.messages m) [] with
  | (.continueIteration, mutation) =>
    if !cm.connectionOpen then none
    else match (cm.messages m).metadata.getString realServerAddress with
      | .error _ => none
      | .ok address =>
        let md := md.putString realServerAddress address
        some ⟨md, mutation, md.originMessage⟩
  | _ => none

theorem responseEncodeCall_eq_some {call : EncodeCall α} (hcall : responseEncodeCall cm m md = some call) :
    ∃ mutation address, encoderFilters (cm.messages m) [] = (.continueIteration, mutation) ∧
      cm.connectionOpen = true ∧
      (cm.messages m).metadata.getString realServerAddress = .ok address ∧
      call = ⟨md.putString realServerAddress address, mutation,
        (md.putString realServerAddress address).originMessage⟩ := by
  rw [responseEncodeCall] at hcall
  split at hcall
  · next mutation hfilters =>
    split at hcall
    · cases hcall
    · next hopen =>
      split at hcall
      · cases hcall
      · next address haddress =>
        exact ⟨mutation, address, hfilters, by simpa using hopen, haddress, (Option.some.inj hcall).symm⟩
  · cases hcall

/-- What `onMessageDecoded` writes is what this call returns. -/
theorem responseDecoded_of_call (cfg : Config σ α) {call : EncodeCall α}
    (hcall : responseEncodeCall cm m md = some call) : responseDecoded cfg cm m md [] =
      match cfg.codec.encode call.metadata call.mutation call.originMessage with
      | .error e => (.error e, cm.modifyDecoder m fun d => { d with metadata := some md })
      | .ok bytes => (.ok (), ((cm.modifyDecoder m fun d => { d with metadata := some md }).emit
          (.response m call.metadata bytes)).modifyDecoder m fun d =>
              { d with responseStatus := .complete }) := by
  obtain ⟨mutation, address, hfilters, hopen, haddress, rfl⟩ := responseEncodeCall_eq_some cm m md hcall
  have hopen' : (cm.modifyDecoder m fun d => { d with metadata := some md }).connectionOpen = true := hopen
  cases henc : cfg.codec.encode (md.putString realServerAddress address) mutation
      (md.putString realServerAddress address).originMessage with
  | error e =>
    simp only [responseDecoded, hfilters, hopen', haddress, henc, Bool.not_true, Bool.false_eq_true, if_false]
  | ok bytes =>
    simp only [responseDecoded, hfilters, hopen', haddress, henc, Bool.not_true, Bool.false_eq_true, if_false]

end Calls

/-- Two mutations are the same `std::map`. -/
def Mutation.SameMap (mutation mutation' : Mutation) : Prop := ∀ k, mutation.lookup k = mutation'.lookup k

theorem Mutation.sameMap_set_iff (mutation entries : Mutation) :
    mutation.SameMap (mutation.set entries) ↔
      ∀ k v, entries.reverse.lookup k = some v → mutation.lookup k = some v := by
  constructor
  · intro h k v hv
    rw [h k, Mutation.lookup_set_reverse, hv, Option.some_or]
  · intro h k
    rw [Mutation.lookup_set_reverse]
    cases hv : entries.reverse.lookup k with
    | none => rfl
    | some v => rw [h k v hv, Option.some_or]

/-- For every route, in particular the one a request has matched, and every response that comes to
be encoded: `encode` gets the map of the encoder filters updated with the route's entries for
responses just when that map has every one of these entries already, the last one for each key. -/
theorem response_mutation_applied_iff (route : MatchedRoute D) (cm : ConnectionManager σ α)
    (m : MsgId) (md : Metadata α)
    {call : EncodeCall α} (hcall : responseEncodeCall cm m md = some call) :
    call.mutation.SameMap (route.responseMutation (encoderFilters (cm.messages m) []).2) ↔
      ∀ k v, route.parent.responseMutation.reverse.lookup k = some v →
        (encoderFilters (cm.messages m) []).2.lookup k = some v := by
  obtain ⟨mutation, address, hfilters, -, -, rfl⟩ := responseEncodeCall_eq_some cm m md hcall
  rw [hfilters, MatchedRoute.responseMutation]
  exact Mutation.sameMap_set_iff mutation _

section Concrete

open Trpc Route

def matchedEntry (route : MatchedRoute D) : MetaProtocolProxy.RouteEntry where
  clusterName := route.clusterName
  requestMutation := route.parent.requestMutation

def markingEntry : RouteEntryImplBase (String × String) where
  routeName := "marked"
  clusterName := "c"
  configHeaders := []
  responseMutation := [("served-by", "v1"), ("served-by", "v2")]

def markingTable : RouteMatcherImpl (String × String) := ⟨[markingEntry]⟩

def markingRoute : MatchedRoute (String × String) := { parent := markingEntry }

/-- A request on that route, with its encoder filters, has gone to connection 3. -/
def markedRequest (encoders : List EncoderVerdict) : Event Unit :=
  .decoded { messageType := .request, requestId := 5 } encoders []
    { route := some (matchedEntry markingRoute), cluster := some { host := some "h" }, pool := .ready 3 }

/-- A filter that sets the entry itself. -/
theorem response_mutation_applied_by_filter :
    ∃ call, responseEncodeCall
        (Runs.run (step trpcConfig) {} [markedRequest [{ mutation := [("served-by", "v2")] }]]) 0
        { messageType := .response, requestId := 5 } = some call ∧
      call.mutation.SameMap (markingRoute.responseMutation [("served-by", "v2")]) := by
  obtain ⟨call, hcall⟩ : ∃ call, responseEncodeCall
      (Runs.run (step trpcConfig) {} [markedRequest [{ mutation := [("served-by", "v2")] }]]) 0
      { messageType := .response, requestId := 5 } = some call := ⟨_, rfl⟩
  refine ⟨call, hcall, (response_mutation_applied_iff markingRoute _ 0 _ hcall).2 fun k v hv => ?_⟩
  have hlast : markingRoute.parent.responseMutation.reverse =
    [("served-by", "v2"), ("served-by", "v1")] := rfl
  rw [hlast, List.lookup_cons] at hv
  by_cases hk : k = "served-by"
  · subst hk
    exact hv
  · simp [List.lookup_cons, beq_eq_false_iff_ne.2 hk] at hv

/-- The request matches the route, and its response is encoded with an empty mutation. -/
theorem marking_route_ignored :
    markingTable.route exactHeaders searchIntervals [] 0 = .ok (some markingRoute) ∧
    ∃ call, responseEncodeCall (Runs.run (step trpcConfig) {} [markedRequest []]) 0
        { messageType := .response, requestId := 5 } = some call ∧
      call.mutation = [] ∧ (markingRoute.responseMutation []).lookup "served-by" = some "v2" ∧
      ¬ call.mutation.SameMap (markingRoute.responseMutation []) := by
  refine ⟨rfl, _, rfl, rfl, by decide, fun h => ?_⟩
  exact absurd (h "served-by") (by decide)

end Concrete

end MetaProtocolProxy
