import WKOpenVR.Text
import WKOpenVR.Osc.Router

/-!
# The requests of the overlay

The overlay subscribes to addresses, unsubscribes, and publishes a message for testing, by
requests whose payloads have buffers of fixed sizes (`OscRouteSubscribe`, `OscPublish`).
They come from another process, so that a string need not be terminated, and a length need
not be that of the buffer it is for.

* A subscription has a flag that says whether the route is active. The handler does not
  look at it: what an address is counted for are the subscribers whose last request was a
  subscription with a pattern that matches (`counted_iff_of_enabled`).
* The length of the arguments of a message to publish is not compared with the size of
  their buffer. What is published is in the request if and only if the length is at most
  that, or the message does not get into the queue (`publishBounded_iff`).
-/

namespace WKOpenVR.Osc

open Option Function

/-- `OSC_PUBLISH_TYPETAG_LEN`. -/
def publishTypetagLen : ℕ := 8

/-- `OSC_PUBLISH_ARG_LEN`. -/
def publishArgLen : ℕ := 32

structure OscRouteSubscribe where
  subscriberId : UInt32
  enabled : UInt8
  pattern : Vector UInt8 routeAddrLen

structure OscPublish where
  address : Vector UInt8 routeAddrLen
  typetag : Vector UInt8 publishTypetagLen
  argLen : UInt8
  argBytes : Vector UInt8 publishArgLen

/-- The string in a buffer, which ends at its terminator or with the buffer. -/
def CStr.ofBuffer (buffer : List UInt8) : CStr where
  bytes := buffer.takeWhile (· ≠ 0)
  nul_free h := by simpa using List.mem_takeWhile_imp h

/-- The label of a subscriber, `sub-` and its id. -/
def subscriberLabel (sub : UInt32) : CStr where
  bytes := [115, 117, 98, 45] ++ Text.decimal sub.toNat
  nul_free h := by
    rcases List.mem_append.1 h with h | h
    · exact absurd h (by decide)
    · exact absurd (Text.isDigit_of_mem_decimal h) (by decide)

/-- The bytes that are copied from the buffer of the arguments. `beyond` is what is in the
    memory after it. -/
def OscPublish.args (req : OscPublish) (beyond : ℕ → UInt8) : List UInt8 :=
  (List.range req.argLen.toNat).map fun i =>
    req.argBytes.toList.getD i (beyond (i - publishArgLen))

/-- `ResponseSuccess` and `ResponseInvalid`. -/
inductive ResponseType
  | success
  | invalid
  deriving DecidableEq

namespace Router

variable (r : Router)

def handleSubscribe (req : OscRouteSubscribe) : ResponseType × Router :=
  let result := r.routeTable.subscribe req.subscriberId (.ofBuffer req.pattern.toList)
    (subscriberLabel req.subscriberId)
  (if result.1 then .success else .invalid, { r with routeTable := result.2 })

def handleUnsubscribe (sub : UInt32) : ResponseType × Router :=
  (.success, { r with routeTable := r.routeTable.unsubscribe sub })

def handlePublish (req : OscPublish) (beyond : ℕ → UInt8) : ResponseType × Router :=
  let result := r.buildAndEnqueue (.ofBuffer req.address.toList) (.ofBuffer req.typetag.toList)
    (req.args beyond)
  (if result.1 then .success else .invalid, result.2)

end Router

/-! ## Routes -/

/-- The requests that are about a route. -/
inductive RouteRequest
  | subscribe (req : OscRouteSubscribe)
  | unsubscribe (sub : UInt32)

def RouteRequest.subscriberId : RouteRequest → UInt32
  | .subscribe req => req.subscriberId
  | .unsubscribe sub => sub

/-- What happens to the router: the requests of the overlay, what is published in the
    process and from other processes, and the worker. -/
inductive RouterEvent
  | route (request : RouteRequest)
  | publish (req : OscPublish) (beyond : ℕ → UInt8)
  | publishOsc (address typetag : CStr) (args : List UInt8)
  | frame (frame : List UInt8)
  | dequeue
  | send (isOpen : Bool) (sent : ℤ) (tick : UInt64)

def requestMachine : Machine Router RouterEvent where
  init := {r | r ∈ routerMachine.init ∧ ∃ entries, r.routeTable = .fresh entries}
  step r
    | .route (.subscribe req) => some (r.handleSubscribe req).2
    | .route (.unsubscribe sub) => some (r.handleUnsubscribe sub).2
    | .publish req beyond => some (r.handlePublish req beyond).2
    | .publishOsc address typetag args => routerMachine.step r (.publish address typetag args)
    | .frame frame => routerMachine.step r (.frame frame)
    | .dequeue => routerMachine.step r .dequeue
    | .send isOpen sent tick => routerMachine.step r (.send isOpen sent tick)

def RouterEvent.request? : RouterEvent → Option RouteRequest
  | .route request => some request
  | _ => none

variable (es : List RouterEvent)

/-- The requests that are about a route, in their order. -/
def routeRequests : List RouteRequest := es.filterMap RouterEvent.request?

/-- The subscribers that have sent a request. -/
def subscribers : Finset UInt32 :=
  ((routeRequests es).map RouteRequest.subscriberId).toFinset

variable (sub : UInt32)

def lastRequest : Option RouteRequest :=
  ((routeRequests es).filter (·.subscriberId == sub)).getLast?

/-- The last request of a subscriber, if it was a subscription. -/
def subscription : Option OscRouteSubscribe :=
  match lastRequest es sub with
  | some (.subscribe req) => some req
  | _ => none

/-- The pattern of a request, of which the last byte of the buffer is for the terminator. -/
def OscRouteSubscribe.glob (req : OscRouteSubscribe) : List UInt8 :=
  (CStr.ofBuffer req.pattern.toList).bytes.take (routeAddrLen - 1)

variable (t : RouteTable)

/-- A dispatched address is counted as a match for a subscriber. -/
def Counted (address : CStr) (tick : UInt64) (sub : UInt32) : Prop :=
  ∃ i, (t.entries i).active = true ∧ (t.entries i).subscriberId = sub ∧
    ((t.dispatch address tick).2.entries i).matchCount = (t.entries i).matchCount + 1

open RouteTable

/-- An address is counted for the subscribers whose route matches. -/
theorem counted_iff_matches {t : RouteTable} {m : RouteMap} (h : SlotMap.Holds t.slots m)
    (address : CStr) (tick : UInt64) (sub : UInt32) :
    Counted t address tick sub ↔ ∃ route, m sub = some route ∧ route.Matches address = true := by
  have hcount (i : Fin maxRoutes) (hactive : (t.entries i).active = true) :
      ((t.dispatch address tick).2.entries i).matchCount = (t.entries i).matchCount + 1 ↔
        (t.entries i).Matches address = true := by
    have hne : (t.entries i).matchCount ≠ (t.entries i).matchCount + 1 := by simp
    simp only [RouteTable.dispatch, updateActive, hactive, if_true, Route.countMatch]
    split_ifs with hmatch
    · simp [hmatch]
    · simp [hmatch, hne]
  constructor
  · rintro ⟨i, hactive, hid, hadd⟩
    exact ⟨_, h.of_slot (slots_eq_some.2 ⟨hactive, hid, rfl⟩), (hcount i hactive).1 hadd⟩
  · rintro ⟨route, hroute, hmatch⟩
    obtain ⟨i, hi⟩ := (h.mem_iff sub route).1 hroute
    obtain ⟨hactive, hid, rfl⟩ := slots_eq_some.1 hi
    exact ⟨i, hactive, hid, (hcount i hactive).2 hmatch⟩

/-- The routes of the table have the patterns of the subscriptions. -/
def Routed : Prop :=
  ∃ m : RouteMap, SlotMap.Holds t.slots m ∧
    ∀ sub, (m sub).map Route.pattern = (subscription es sub).map OscRouteSubscribe.glob

section Histories

variable {es sub}

theorem routeRequests_concat (e : RouterEvent) :
    routeRequests (es ++ [e]) = routeRequests es ++ e.request?.toList := by
  rw [routeRequests, routeRequests, List.filterMap_append]
  cases h : e.request? <;> simp [h]

variable {e : RouterEvent}

theorem lastRequest_of_none (h : e.request? = none) : lastRequest (es ++ [e]) = lastRequest es := by
  funext sub
  rw [lastRequest, routeRequests_concat, h, toList_none, List.append_nil, lastRequest]

variable (request : RouteRequest)

theorem lastRequest_route : lastRequest (es ++ [.route request]) =
      update (lastRequest es) request.subscriberId (some request) := by
  funext sub
  rw [lastRequest, routeRequests_concat, RouterEvent.request?, toList_some, List.filter_append]
  by_cases hsub : sub = request.subscriberId
  · subst hsub
    simp
  · have hne : (request.subscriberId == sub) = false := by simpa using fun h => hsub h.symm
    simp [hne, update_of_ne hsub, lastRequest]

theorem subscribers_mono (es : List RouterEvent) (e : RouterEvent) :
    subscribers es ⊆ subscribers (es ++ [e]) := by
  rw [subscribers, subscribers, routeRequests_concat, List.map_append, List.toFinset_append]
  exact Finset.subset_union_left

theorem mem_subscribers_route : request.subscriberId ∈ subscribers (es ++ [.route request]) := by
  simp [subscribers, routeRequests_concat, RouterEvent.request?]

theorem mem_subscribers_of_subscription {req : OscRouteSubscribe}
    (h : subscription es sub = some req) : sub ∈ subscribers es := by
  obtain ⟨request, hlast⟩ : ∃ request, lastRequest es sub = some request := by
    cases hlast : lastRequest es sub with
    | none => simp [subscription, hlast] at h
    | some request => exact ⟨request, rfl⟩
  have hmem := List.mem_of_getLast? hlast
  rw [List.mem_filter, beq_iff_eq] at hmem
  rw [subscribers, List.mem_toFinset, ← hmem.2]
  exact List.mem_map_of_mem hmem.1

theorem subscription_of_none (h : e.request? = none) :
    subscription (es ++ [e]) = subscription es := by
  funext sub
  rw [subscription, lastRequest_of_none h, subscription]

theorem subscription_subscribe (req : OscRouteSubscribe) :
    subscription (es ++ [.route (.subscribe req)]) =
      update (subscription es) req.subscriberId (some req) := by
  funext sub
  by_cases hsub : sub = req.subscriberId
  · subst hsub
    simp [subscription, lastRequest_route, RouteRequest.subscriberId]
  · simp [subscription, lastRequest_route, RouteRequest.subscriberId, update_of_ne hsub]

theorem subscription_unsubscribe (sub : UInt32) :
    subscription (es ++ [.route (.unsubscribe sub)]) =
      update (subscription es) sub none := by
  funext sub'
  by_cases hsub : sub' = sub
  · subst hsub
    simp [subscription, lastRequest_route, RouteRequest.subscriberId]
  · simp [subscription, lastRequest_route, RouteRequest.subscriberId, update_of_ne hsub]

end Histories

section Steps

variable {es t} {r r' : Router}

/-- With at most 32 subscribers, there is room for the route of each. -/
theorem Routed.subscribe (h : Routed es t) (req : OscRouteSubscribe)
    (hroom : (subscribers (es ++ [.route (.subscribe req)])).card ≤ maxRoutes) :
    Routed (es ++ [.route (.subscribe req)]) (t.subscribe req.subscriberId
      (.ofBuffer req.pattern.toList) (subscriberLabel req.subscriberId)).2 := by
  obtain ⟨m, hholds, hpattern⟩ := h
  have hkeys : SlotMap.keys m ⊆ ↑(subscribers (es ++ [.route (.subscribe req)])) := by
    intro sub hsub
    have hsome : ((subscription es sub).map OscRouteSubscribe.glob).isSome := by
      rw [← hpattern, isSome_map]
      exact hsub
    rw [isSome_map] at hsome
    obtain ⟨req', hreq'⟩ := isSome_iff_exists.1 hsome
    exact subscribers_mono es _ (mem_subscribers_of_subscription hreq')
  have hfree : ¬(m req.subscriberId = none ∧ (SlotMap.keys m).ncard = maxRoutes) := by
    rintro ⟨hnone, hfull⟩
    have hlt : SlotMap.keys m ⊂ ↑(subscribers (es ++ [.route (.subscribe req)])) := by
      refine ⟨hkeys, fun hsub => ?_⟩
      have hkey := hsub (Finset.mem_coe.2 (mem_subscribers_route (.subscribe req)))
      exact absurd hkey (by simp [SlotMap.keys, RouteRequest.subscriberId, hnone])
    have hcard := Set.ncard_lt_ncard hlt (Finset.finite_toSet _)
    rw [hfull, Set.ncard_coe_finset] at hcard
    omega
  obtain ⟨-, hholds'⟩ := subscribe_refines hholds req.subscriberId
    (.ofBuffer req.pattern.toList) (subscriberLabel req.subscriberId)
  rw [RouteMap.subscribe, if_neg hfree] at hholds'
  refine ⟨update m req.subscriberId (some _), hholds', fun sub => ?_⟩
  rw [subscription_subscribe]
  by_cases hsub : sub = req.subscriberId
  · subst hsub
    simp [Route.new, OscRouteSubscribe.glob]
  · rw [update_of_ne hsub, update_of_ne hsub, hpattern]

theorem Routed.unsubscribe (h : Routed es t) (sub : UInt32) :
    Routed (es ++ [.route (.unsubscribe sub)]) (t.unsubscribe sub) := by
  obtain ⟨m, hholds, hpattern⟩ := h
  refine ⟨_, unsubscribe_refines hholds sub, fun sub' => ?_⟩
  rw [subscription_unsubscribe, RouteMap.unsubscribe]
  by_cases hsub : sub' = sub
  · subst hsub
    simp
  · rw [update_of_ne hsub, update_of_ne hsub, hpattern]

/-- Counting keeps the patterns. -/
theorem Routed.updateActive (h : Routed es t) {f : Route → Route}
    (hf : ∀ route, (f route).pattern = route.pattern) : Routed es (t.updateActive f) := by
  obtain ⟨m, hholds, hpattern⟩ := h
  refine ⟨_, updateActive_refines hholds f, fun sub => ?_⟩
  have hcomp : Route.pattern ∘ f = Route.pattern := funext hf
  rw [map_map, hcomp, hpattern]

variable (route : Route) (address : CStr)

theorem Route.pattern_countMatch (tick : UInt64) :
    (route.countMatch address tick).pattern = route.pattern := by
  unfold countMatch
  split_ifs <;> rfl

theorem Route.pattern_countDrop : (route.countDrop address).pattern = route.pattern := by
  unfold countDrop
  split_ifs <;> rfl

theorem Routed.bumpDropCount (h : Routed es t) (address : CStr) :
    Routed es (t.bumpDropCount address) :=
  h.updateActive fun route => route.pattern_countDrop address

theorem Routed.buildAndEnqueue (h : Routed es r.routeTable) (address typetag : CStr)
    (args : List UInt8) : Routed es (r.buildAndEnqueue address typetag args).2.routeTable := by
  unfold Router.buildAndEnqueue
  split
  · exact h
  · split
    · exact h.bumpDropCount address
    · exact h

theorem Routed.pubPipeFrame (h : Routed es r.routeTable) (frame : List UInt8) :
    Routed es (r.pubPipeFrame frame).routeTable := by
  have hdrop : Routed es (r.countDrop (oscParseMessage frame)) := by
    unfold Router.countDrop
    split
    · exact h.bumpDropCount _
    · exact h
  unfold Router.pubPipeFrame
  split
  · dsimp only
    split
    · exact hdrop
    · exact h
  · exact h

theorem Routed.dequeue (h : Routed es r.routeTable) : Routed es r.dequeue.routeTable := by
  unfold Router.dequeue
  split <;> exact h

theorem Routed.send (h : Routed es r.routeTable) (entry : Packet) (isOpen : Bool) (sent : ℤ)
    (tick : UInt64) : Routed es (r.send entry isOpen sent tick).routeTable := by
  have hdispatch (address : CStr) : Routed es (r.routeTable.dispatch address tick).2 :=
    h.updateActive fun route => route.pattern_countMatch address tick
  unfold Router.send Router.countRoutes
  split_ifs
  · split
    · exact hdispatch _
    · exact h
  all_goals exact h

variable {e : RouterEvent}

/-- The events that are no requests for a route keep the routes. -/
theorem Routed.of_none (h : Routed es r.routeTable) (he : e.request? = none)
    (hs : requestMachine.step r e = some r') : Routed (es ++ [e]) r'.routeTable := by
  have hkeep : Routed es r'.routeTable := by
    cases e with
    | route request => cases he
    | publish _ _ | publishOsc _ _ _ =>
      cases hs
      exact h.buildAndEnqueue _ _ _
    | frame frame =>
      cases hs
      exact h.pubPipeFrame frame
    | dequeue =>
      simp only [requestMachine, routerMachine] at hs
      split at hs <;> cases hs
      exact h.dequeue
    | send isOpen sent tick =>
      simp only [requestMachine, routerMachine] at hs
      split at hs <;> cases hs
      exact h.send _ _ _ _
  obtain ⟨m, hholds, hpattern⟩ := hkeep
  exact ⟨m, hholds, by rw [subscription_of_none he]; exact hpattern⟩

theorem Routed.step (h : Routed es r.routeTable)
    (hroom : (subscribers (es ++ [e])).card ≤ maxRoutes)
    (hs : requestMachine.step r e = some r') : Routed (es ++ [e]) r'.routeTable := by
  cases he : e.request? with
  | none => exact h.of_none he hs
  | some request =>
    cases e with
    | route request =>
      cases request with
      | subscribe req =>
        cases hs
        exact h.subscribe req hroom
      | unsubscribe sub =>
        cases hs
        exact h.unsubscribe sub
    | _ => cases he

theorem routed_of_run (h : requestMachine.Run es r) (hroom : (subscribers es).card ≤ maxRoutes) :
    Routed es r.routeTable := by
  revert hroom
  refine Machine.RunIf.history_invariant
    (I := fun es r => (subscribers es).card ≤ maxRoutes → Routed es r.routeTable) h ?_ ?_
  · rintro r ⟨-, entries, hfresh⟩ -
    rw [hfresh]
    exact ⟨_, holds_fresh entries, fun sub => rfl⟩
  · intro es r e r' ih _ hs hroom
    exact (ih ((Finset.card_le_card (subscribers_mono es e)).trans hroom)).step hroom hs

end Steps

/-- After any events of at most 32 subscribers, an address is counted for the subscribers
    whose last request was a subscription that is enabled and has a pattern that matches,
    if the last subscriptions that match are enabled. -/
theorem counted_iff_of_enabled {es : List RouterEvent} {r : Router} (h : requestMachine.Run es r)
    (hroom : (subscribers es).card ≤ maxRoutes) (address : CStr) (tick : UInt64) (sub : UInt32)
    (henabled : ∀ req, lastRequest es sub = some (.subscribe req) →
      oscPatternMatch req.glob address.bytes = true → req.enabled = 1) :
    Counted r.routeTable address tick sub ↔
      ∃ req, lastRequest es sub = some (.subscribe req) ∧ req.enabled = 1 ∧
        oscPatternMatch req.glob address.bytes = true := by
  obtain ⟨m, hholds, hpattern⟩ := routed_of_run h hroom
  have hsubscription (req : OscRouteSubscribe) :
      subscription es sub = some req ↔ lastRequest es sub = some (.subscribe req) := by
    unfold subscription
    split <;> simp_all
  have hpattern := hpattern sub
  rw [counted_iff_matches hholds]
  constructor
  · rintro ⟨route, hroute, hmatch⟩
    rw [hroute, map_some] at hpattern
    obtain ⟨req, hreq, hglob⟩ := map_eq_some_iff.1 hpattern.symm
    have hmatch' : oscPatternMatch req.glob address.bytes = true := by
      rw [hglob]
      exact hmatch
    have hlast := (hsubscription req).1 hreq
    exact ⟨req, hlast, henabled req hlast hmatch', hmatch'⟩
  · rintro ⟨req, hlast, -, hmatch⟩
    rw [(hsubscription req).2 hlast, map_some] at hpattern
    obtain ⟨route, hroute, hglob⟩ := map_eq_some_iff.1 hpattern
    refine ⟨route, hroute, ?_⟩
    rw [Route.Matches, hglob]
    exact hmatch

variable (enabled : UInt8)

/-- A subscription of the subscriber 7 to `/a`. -/
def subscribeA : OscRouteSubscribe where
  subscriberId := 7
  enabled := enabled
  pattern := .ofFn fun i => [47, 97].getD i 0

theorem run_subscribeA : requestMachine.Run
    [.route (.subscribe (subscribeA enabled))]
    (Router.fresh.handleSubscribe (subscribeA enabled)).2 :=
  @Machine.RunIf.step _ _ _ _ [] _ _ _
    (.init ⟨⟨rfl, rfl, rfl, rfl, rfl, rfl, rfl, rfl⟩, _, rfl⟩) trivial rfl

theorem counted_iff_of_enabled_one :
    Counted (Router.fresh.handleSubscribe (subscribeA 1)).2.routeTable ⟨[47, 97], by decide⟩ 0 7 ↔
      ∃ req, lastRequest [.route (.subscribe (subscribeA 1))] 7 = some (.subscribe req) ∧
        req.enabled = 1 ∧ oscPatternMatch req.glob [47, 97] = true := by
  refine counted_iff_of_enabled (run_subscribeA 1) (by decide) ⟨[47, 97], by decide⟩ 0 7 ?_
  rintro req hlast -
  obtain rfl : subscribeA 1 = req := by simpa [lastRequest, routeRequests, RouterEvent.request?,
    RouteRequest.subscriberId, subscribeA] using hlast
  rfl

/-- A subscription that is not enabled counts. -/
theorem disabled_route_counted : ∃ es r req, requestMachine.Run es r ∧
    (subscribers es).card ≤ maxRoutes ∧ lastRequest es 7 = some (.subscribe req) ∧
    req.enabled = 0 ∧ Counted r.routeTable ⟨[47, 97], by decide⟩ 0 7 := by
  refine ⟨_, _, subscribeA 0, run_subscribeA 0, by decide, rfl, rfl, ?_⟩
  exact ⟨⟨0, by decide⟩, by decide +kernel⟩

/-! ## Publishing -/

/-- A request to publish does what it says: it is refused, and the queue is as it was, or a
    packet is queued whose arguments are the first `argLen` bytes of the buffer of the
    request, of which there are so many. -/
def PublishBounded (r : Router) (req : OscPublish) (beyond : ℕ → UInt8) : Prop :=
  ((r.handlePublish req beyond).1 = .invalid ∧ (r.handlePublish req beyond).2.queue = r.queue) ∨
    ∃ packet,
      (r.handlePublish req beyond).2.queue.toList = r.queue.toList ++ [packet] ∧
        req.argLen.toNat ≤ publishArgLen ∧
        oscParseMessage packet = ⟨some (.ofBuffer req.address.toList),
          some (.ofBuffer req.typetag.toList), req.argBytes.toList.take req.argLen.toNat, true⟩

section Publishing

variable (r : Router) (req : OscPublish) (beyond : ℕ → UInt8)

theorem length_ofBuffer_le (buffer : List UInt8) :
    (CStr.ofBuffer buffer).bytes.length ≤ buffer.length :=
  (List.takeWhile_prefix _).length_le

theorem short_ofBuffer {buffer : List UInt8} (h : buffer.length ≤ routeAddrLen) :
    (CStr.ofBuffer buffer).Short := by
  have hle := length_ofBuffer_le buffer
  simp only [routeAddrLen] at h
  simp only [CStr.Short]
  omega

/-- The packet of a request always fits. -/
theorem buildPacket_ok : (Router.buildPacket (.ofBuffer req.address.toList)
    (.ofBuffer req.typetag.toList) (req.args beyond)).ok = true := by
  have haddress := length_ofBuffer_le req.address.toList
  have htypetag := length_ofBuffer_le req.typetag.toList
  have haddress' := CStr.length_encode_le (.ofBuffer req.address.toList)
  have htypetag' := CStr.length_encode_le (.ofBuffer req.typetag.toList)
  have hargs : (req.args beyond).length = req.argLen.toNat := by
    rw [OscPublish.args, List.length_map, List.length_range]
  have hlt := req.argLen.toNat_lt
  have hwrote := Router.wrote_buildPacket (.ofBuffer req.address.toList)
    (.ofBuffer req.typetag.toList) (req.args beyond)
  rw [hwrote.ok_iff, List.length_append, List.length_append, hargs]
  rw [Vector.length_toList] at haddress htypetag
  simp only [routeAddrLen, publishTypetagLen, roundUp4, sendQueueEntryMaxSize]
    at haddress htypetag haddress' htypetag' ⊢
  omega

/-- The arguments are in the buffer, if they are not more than it has. -/
theorem args_of_le (h : req.argLen.toNat ≤ publishArgLen) :
    req.args beyond = req.argBytes.toList.take req.argLen.toNat := by
  refine List.ext_getElem ?_ fun i hi hi' => ?_
  · rw [OscPublish.args, List.length_map, List.length_range, List.length_take,
      Vector.length_toList, min_eq_left h]
  · rw [List.length_take, Vector.length_toList, min_eq_left h] at hi'
    have hlt : i < req.argBytes.toList.length := by
      rw [Vector.length_toList]
      omega
    simp only [OscPublish.args, List.getElem_map, List.getElem_range, List.getElem_take]
    exact List.getD_eq_getElem _ _ hlt

/-- A request is refused if the queue is full. -/
theorem handlePublish_of_full (hfull : r.queue.count = sendQueueCapacity) :
    (r.handlePublish req beyond).1 = .invalid ∧
      (r.handlePublish req beyond).2.queue = r.queue := by
  have hnone (data : Packet) : r.enqueueLocked data = none := by
    rw [Router.enqueueLocked, RingQueue.push?_eq_none.2 hfull, ite_self]
  simp only [Router.handlePublish, Router.buildAndEnqueue, buildPacket_ok, hnone, Bool.not_true,
    Bool.false_eq_true, if_false, and_self]

/-- A request is queued with whatever is in the memory where its arguments should be. -/
theorem handlePublish_of_room (hroom : r.queue.count ≠ sendQueueCapacity) :
    (r.handlePublish req beyond).1 = .success ∧
      (r.handlePublish req beyond).2.queue.toList = r.queue.toList ++
        [(CStr.ofBuffer req.address.toList).encode ++ (CStr.ofBuffer req.typetag.toList).encode ++
          req.args beyond] := by
  have hok := buildPacket_ok req beyond
  have hwrote := Router.wrote_buildPacket (.ofBuffer req.address.toList)
    (.ofBuffer req.typetag.toList) (req.args beyond)
  have hdata := hwrote.data_eq hok
  cases henqueue : r.enqueueLocked (Router.buildPacket (.ofBuffer req.address.toList)
      (.ofBuffer req.typetag.toList) (req.args beyond)).data with
  | none =>
    have hfull := Router.full_of_enqueueLocked (OscPacket.length_le _) henqueue
    rw [RingQueue.length_toList] at hfull
    exact absurd hfull hroom
  | some queue =>
    have hlist := (Router.toList_enqueueLocked henqueue).1
    rw [hdata] at hlist
    simp only [Router.handlePublish, Router.buildAndEnqueue, hok, henqueue, Bool.not_true,
      Bool.false_eq_true, if_false, if_true, hlist, and_self]

/-- A request to publish is bounded if and only if its length is at most the size of its
    buffer, or the queue is full. -/
theorem publishBounded_iff :
    PublishBounded r req beyond ↔
      req.argLen.toNat ≤ publishArgLen ∨ r.queue.count = sendQueueCapacity := by
  by_cases hfull : r.queue.count = sendQueueCapacity
  · exact iff_of_true (.inl (handlePublish_of_full r req beyond hfull)) (.inr hfull)
  · obtain ⟨hanswer, hqueue⟩ := handlePublish_of_room r req beyond hfull
    constructor
    · rintro (⟨hinvalid, -⟩ | ⟨packet, -, hlen, -⟩)
      · rw [hanswer] at hinvalid
        cases hinvalid
      · exact .inl hlen
    · rintro (hlen | hfull')
      · refine .inr ⟨_, hqueue, hlen, ?_⟩
        rw [args_of_le req beyond hlen]
        exact oscParseMessage_encode (short_ofBuffer (by rw [Vector.length_toList]))
          (short_ofBuffer (by rw [Vector.length_toList]; decide)) _
      · exact absurd hfull' hfull

end Publishing

/-- A request with no address that says it has 33 bytes of arguments, one more than its
    buffer. -/
def publishBeyond : OscPublish where
  address := .replicate _ 0
  typetag := .replicate _ 0
  argLen := 33
  argBytes := .replicate _ 0

/-- The byte after the buffer is queued. -/
theorem publish_beyond_buffer :
    ¬PublishBounded .fresh publishBeyond (fun _ => 1) ∧
      (Router.fresh.handlePublish publishBeyond (fun _ => 1)).2.queue.toList =
        [List.replicate 40 0 ++ [1]] := by
  refine ⟨fun h => ?_, by decide +kernel⟩
  rcases h with ⟨hinvalid, -⟩ | ⟨packet, -, hlen, -⟩
  · exact absurd hinvalid (by decide +kernel)
  · exact absurd hlen (by decide)

end WKOpenVR.Osc
