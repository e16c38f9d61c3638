import Spillway.Cluster.Query
import Spillway.Proofs.Cluster.Cancellation

/-!
# How a query ends

A query is over once its cancellation flag is up. The query raises it when it is cancelled, and so does
everybody who holds the token. Parties that are tied to the query later find the flag up and are
cancelled at once. Those that are tied to it already are cancelled with the query, but only if it raises
the flag itself: when the flag is up, cancelling the query does nothing more.
-/

namespace Spillway

/-- The coordinator is cancelled, and so is each of its entries. -/
structure Coordinator.Over (coordinator : Coordinator) : Prop where
  cancelled : coordinator.cancelled = true
  entries : ∀ filter entry, coordinator.entry filter = .ok entry → entry.cancelled = true

theorem Coordinator.over_cancel
    {coordinator : Coordinator}
    (stands : coordinator.cancelled = false) :
    coordinator.cancel.2.Over := by
  rw [cancel, if_neg (Bool.eq_false_iff.mp stands)]
  refine ⟨rfl, fun filter entry known => ?_⟩
  have found : coordinator.entries.cancelAll.lookup filter = some entry := lookup_of_entry known
  rw [Entries.lookup_cancelAll, Option.map_eq_some_iff] at found
  obtain ⟨before, _, rfl⟩ := found
  rfl

/-- A coordinator that is opened is not cancelled and knows no worker. -/
theorem Coordinator.untouched_of_start
    {query : QueryId}
    {mode : FilterMode}
    {descriptors : List FilterDescriptor}
    {now : Nat}
    {coordinator : Coordinator}
    (started : start query mode descriptors now = .ok coordinator) :
    coordinator.cancelled = false ∧ coordinator.workers = [] := by
  simp only [start, bind_eq_ok_iff, pure_eq_ok_iff] at started
  obtain ⟨_, _, rfl⟩ := started
  exact ⟨rfl, rfl⟩

theorem Coordinator.Over.await
    {network : Network}
    {coordinator : Coordinator}
    {filter : FilterId}
    {entry : Entry}
    (ended : coordinator.Over)
    (there : network.coordinator = some coordinator)
    (known : coordinator.entry filter = .ok entry)
    (since span : Nat) :
    (Network.await (Network.coordinatorEntry filter) since span).outcome network =
      (.ok .cancelled, network) := by
  have found : network.coordinatorEntry filter = .ok entry := by
    rw [Network.coordinatorEntry, there]
    exact known
  exact Network.await_of_cancelled found (ended.entries filter entry known) since span

/-- A bank that was cancelled sends away whoever waits for one of its filters. -/
theorem Bank.await_cancel
    {network : Network}
    {post : Nat}
    {bank : Bank}
    {filter : FilterId}
    {entry : Entry}
    (there : network.bank? post = some bank.cancel)
    (known : bank.entry filter = .ok entry)
    (since span : Nat) :
    (Network.await (Network.bankEntry post filter) since span).outcome network =
      (.ok .cancelled, network) := by
  have looked : bank.cancel.entries.lookup filter = some entry.cancel := by
    rw [cancel, Entries.lookup_cancelAll, lookup_of_entry known]
    rfl
  have found := (Network.bankEntry_of_bank? there filter).trans (entry_of_lookup looked)
  exact Network.await_of_cancelled found rfl since span

namespace Query

/-! ## Calls -/

/-- What ties parties to a query, and what ends it. -/
inductive Call where
  | openFilters (descriptors : List FilterDescriptor)
  | adopt (post : Nat)
  | cancel
  | raiseFlag
  deriving DecidableEq

/-- The call raises the flag. -/
def Call.ends : Call → Bool
  | cancel => true
  | raiseFlag => true
  | _ => false

/-- The query after a call. -/
def next (query : Query) : Call → Query
  | .openFilters descriptors => ((openFilters descriptors).outcome query).2
  | .adopt post => query.adopt post
  | .cancel => query.cancel
  | .raiseFlag => query.raiseFlag

/-- The query after calls. -/
def after (query : Query) (calls : List Call) : Query :=
  calls.foldl next query

/-- Nothing has been tied to the query, and its flag is not up. -/
structure Fresh (query : Query) : Prop where
  cancelled : query.cancelled = false
  opened : query.opened = false
  adopted : query.adopted = []

section Calls

variable {query now : Query} {calls : List Call}

theorem after_concat
    (query : Query)
    (calls : List Call)
    (call : Call) :
    query.after (calls ++ [call]) = (query.after calls).next call :=
  List.foldl_concat ..

/-- Opening the filters changes nothing if it fails. -/
theorem next_openFilters_cases
    (query : Query)
    (descriptors : List FilterDescriptor) :
    query.next (.openFilters descriptors) = query ∨
      query.opened = false ∧ ∃ coordinator,
        Coordinator.start query.id query.mode descriptors query.network.clock = .ok coordinator ∧
        query.next (.openFilters descriptors) = {
          query with
          opened := true
          coordinated := true
          network := {
            query.network with
            coordinator := some (if query.cancelled then coordinator.cancel.2 else coordinator) } } := by
  unfold next openFilters
  dsimp only
  rw [Step.outcome_transition]
  cases opened : query.opened with
  | true => exact .inl rfl
  | false =>
      cases started : Coordinator.start query.id query.mode descriptors query.network.clock with
      | error status => exact .inl rfl
      | ok coordinator => exact .inr ⟨rfl, coordinator, rfl, rfl⟩

/-- A change of one bank. -/
theorem bank?_changeBank
    (query : Query)
    (post other : Nat)
    (change : Bank → Bank) :
    (query.changeBank post change).network.bank? other =
      (query.network.bank? other).map fun bank => if post = other then change bank else bank := by
  unfold changeBank
  split
  · next bank found =>
    refine (query.network.bank?_setBank post other (change bank)).trans ?_
    by_cases same : post = other
    · subst same
      rw [found, Option.map_some, Option.map_some, if_pos rfl]
    · simp only [if_neg same]
  · next missing =>
    by_cases same : post = other
    · subst same
      rw [missing]
      rfl
    · simp only [if_neg same, Option.map_id']

/-- A change of one bank is a change of nothing else. -/
theorem changeBank_others
    (query : Query)
    (post : Nat)
    (change : Bank → Bank) :
    (query.changeBank post change).cancelled = query.cancelled ∧
      (query.changeBank post change).opened = query.opened ∧
      (query.changeBank post change).adopted = query.adopted ∧
      (query.changeBank post change).network.coordinator = query.network.coordinator := by
  unfold changeBank
  split <;> exact ⟨rfl, rfl, rfl, rfl⟩

/-- Banks are cancelled one after the other, some perhaps more than once. -/
theorem cancelBanks
    (query : Query)
    (posts : List Nat) :
    (posts.foldl (fun query post => query.changeBank post Bank.cancel) query).cancelled = query.cancelled ∧
      (posts.foldl (fun query post => query.changeBank post Bank.cancel) query).opened = query.opened ∧
      (posts.foldl (fun query post => query.changeBank post Bank.cancel) query).network.coordinator =
        query.network.coordinator ∧
      ∀ other, (posts.foldl (fun query post => query.changeBank post Bank.cancel) query).network.bank? other =
        (query.network.bank? other).map fun bank => if other ∈ posts then bank.cancel else bank := by
  induction posts generalizing query with
  | nil => exact ⟨rfl, rfl, rfl, fun _ => Option.map_id'.symm⟩
  | cons post posts inductionHypothesis =>
      obtain ⟨cancelled, opened, _, coordinator⟩ := query.changeBank_others post Bank.cancel
      obtain ⟨cancelledThen, openedThen, coordinatorThen, banks⟩ :=
        inductionHypothesis (query.changeBank post Bank.cancel)
      refine ⟨cancelledThen.trans cancelled, openedThen.trans opened,
        coordinatorThen.trans coordinator, fun other => (banks other).trans ?_⟩
      rw [bank?_changeBank, Option.map_map]
      congr 1
      funext bank
      by_cases here : post = other
      · subst here
        simp only [Function.comp_apply, if_pos, List.mem_cons_self]
        split
        · exact bank.cancel_cancel
        · rfl
      · simp only [Function.comp_apply, if_neg here, List.mem_cons, Ne.symm here, false_or]

/-- A coordinator that knows no worker is cancelled without a word. -/
theorem changeCoordinator_cancel
    {coordinator : Coordinator}
    (there : query.network.coordinator = some coordinator)
    (stands : coordinator.cancelled = false)
    (alone : coordinator.workers = []) :
    query.changeCoordinator Coordinator.cancel =
      { query with network := { query.network with coordinator := some coordinator.cancel.2 } } := by
  have silent : coordinator.cancel.1 = [] := by
    rw [Coordinator.cancel, if_neg (Bool.eq_false_iff.mp stands), alone]
    rfl
  unfold changeCoordinator
  rw [there]
  dsimp only
  rw [silent]
  rfl

/-! ## Before the flag is up -/

/-- What calls have made of a fresh query as long as none of them raises the flag. -/
structure Waits (query : Query) (calls : List Call) (now : Query) : Prop where
  cancelled : now.cancelled = false
  adopted : ∀ post, post ∈ now.adopted ↔ .adopt post ∈ calls
  banks : ∀ post, now.network.bank? post = query.network.bank? post
  coordinator : now.opened = true → ∃ coordinator, now.network.coordinator = some coordinator ∧
    coordinator.cancelled = false ∧ coordinator.workers = []

theorem waits_after
    (fresh : query.Fresh)
    (quiet : ∀ call ∈ calls, call.ends = false) :
    query.Waits calls (query.after calls) := by
  induction calls using List.reverseRecOn with
  | nil =>
      refine ⟨fresh.cancelled, fun post => ?_, fun _ => rfl, fun opened => ?_⟩
      · show post ∈ query.adopted ↔ _
        rw [fresh.adopted]
        simp
      · cases fresh.opened.symm.trans opened
  | append_singleton earlier call inductionHypothesis =>
      have waits := inductionHypothesis fun other member => quiet other (List.mem_append_left _ member)
      rw [after_concat]
      generalize query.after earlier = before at waits
      cases call with
      | openFilters descriptors =>
          obtain same | ⟨_, coordinator, started, same⟩ := before.next_openFilters_cases descriptors
          · rw [same]
            refine ⟨waits.cancelled, fun post => ?_, waits.banks, waits.coordinator⟩
            simp [waits.adopted post]
          · rw [same]
            refine ⟨waits.cancelled, fun post => ?_, waits.banks, fun _ => ⟨_, rfl, ?_⟩⟩
            · simp [waits.adopted post]
            · rw [if_neg (Bool.eq_false_iff.mp waits.cancelled)]
              exact Coordinator.untouched_of_start started
      | adopt post =>
          unfold next adopt
          rw [waits.cancelled]
          refine ⟨waits.cancelled, fun other => ?_, waits.banks, waits.coordinator⟩
          simp [waits.adopted other]
      | cancel | raiseFlag => cases quiet _ (List.mem_append_right _ List.mem_cons_self)

/-- To cancel a query is to cancel its coordinator, which tells nobody, and then its banks. -/
theorem Waits.exists_cancel (waits : query.Waits calls now) :
    ∃ raised : Query,
      now.cancel = now.adopted.foldl (fun query post => query.changeBank post Bank.cancel) raised ∧
      raised.cancelled = true ∧ raised.opened = now.opened ∧
      raised.network.posts = now.network.posts ∧
      (now.opened = true → ∃ coordinator, raised.network.coordinator = some coordinator ∧
        coordinator.Over) := by
  unfold Query.cancel
  rw [if_neg (Bool.eq_false_iff.mp waits.cancelled)]
  dsimp only
  cases opened : now.opened with
  | false =>
      have closed : ¬ now.raiseFlag.opened = true := Bool.eq_false_iff.mp opened
      rw [if_neg closed]
      exact ⟨now.raiseFlag, rfl, rfl, opened, rfl, fun isOpen => nomatch isOpen⟩
  | true =>
      have isOpen : now.raiseFlag.opened = true := opened
      obtain ⟨coordinator, there, stands, alone⟩ := waits.coordinator opened
      have found : now.raiseFlag.network.coordinator = some coordinator := there
      rw [if_pos isOpen, changeCoordinator_cancel found stands alone]
      exact ⟨_, rfl, rfl, opened, rfl, fun _ => ⟨_, rfl, Coordinator.over_cancel stands⟩⟩

/-- A query that raises the flag itself cancels everybody who is tied to it. -/
theorem Waits.cancel (waits : query.Waits calls now) :
    now.cancel.cancelled = true ∧ now.cancel.opened = now.opened ∧
      (∀ post, now.cancel.network.bank? post =
        (query.network.bank? post).map fun bank => if .adopt post ∈ calls then bank.cancel else bank) ∧
      (now.opened = true → ∃ coordinator, now.cancel.network.coordinator = some coordinator ∧
        coordinator.Over) := by
  obtain ⟨raised, same, up, opened, posts, ended⟩ := waits.exists_cancel
  obtain ⟨cancelled, stays, coordinator, banks⟩ := raised.cancelBanks now.adopted
  rw [same]
  refine ⟨cancelled.trans up, stays.trans opened, fun post => (banks post).trans ?_, coordinator ▸ ended⟩
  have here : raised.network.bank? post = query.network.bank? post := by
    rw [← waits.banks, Network.bank?, Network.bank?, posts]
  simp only [here, waits.adopted]

/-! ## Once the flag is up -/

/-- What calls have made of a query whose flag was up before. -/
structure Follows (base : Query) (calls : List Call) (now : Query) : Prop where
  cancelled : now.cancelled = true
  banks : ∀ post, now.network.bank? post =
    (base.network.bank? post).map fun bank => if .adopt post ∈ calls then bank.cancel else bank
  opened : base.opened = true → now.opened = true ∧ now.network.coordinator = base.network.coordinator
  opens : base.opened = false → now.opened = true →
    ∃ coordinator, now.network.coordinator = some coordinator ∧ coordinator.Over

theorem follows_after
    (raised : query.cancelled = true)
    (calls : List Call) :
    query.Follows calls (query.after calls) := by
  induction calls using List.reverseRecOn with
  | nil =>
      refine ⟨raised, fun post => ?_, fun opened => ⟨opened, rfl⟩, fun closed opened => ?_⟩
      · simp only [List.not_mem_nil, if_false, Option.map_id']
        rfl
      · cases closed.symm.trans opened
  | append_singleton earlier call inductionHypothesis =>
      rw [after_concat]
      generalize query.after earlier = before at inductionHypothesis
      obtain ⟨cancelled, banks, opened, opens⟩ := inductionHypothesis
      cases call with
      | openFilters descriptors =>
          obtain same | ⟨closed, coordinator, started, same⟩ := before.next_openFilters_cases descriptors
          · rw [same]
            exact ⟨cancelled, fun post => (banks post).trans (by simp), opened, opens⟩
          · rw [same]
            refine ⟨cancelled, fun post => (banks post).trans (by simp), fun first => ?_, fun _ _ => ?_⟩
            · cases closed.symm.trans (opened first).1
            · refine ⟨_, rfl, ?_⟩
              rw [if_pos cancelled]
              exact Coordinator.over_cancel (Coordinator.untouched_of_start started).1
      | adopt post =>
          obtain ⟨cancelledNow, openedNow, _, coordinator⟩ := before.changeBank_others post Bank.cancel
          have same : before.next (.adopt post) =
              { before.changeBank post Bank.cancel with
                adopted := (before.changeBank post Bank.cancel).adopted ++ [post] } := by
            rw [next, adopt, if_pos cancelled]
          rw [same]
          refine ⟨cancelledNow.trans cancelled, fun other => ?_, fun first => ?_, fun closed now => ?_⟩
          · refine (before.bank?_changeBank post other Bank.cancel).trans ?_
            rw [banks, Option.map_map]
            congr 1
            funext bank
            by_cases here : post = other
            · subst here
              simp only [Function.comp_apply, if_pos, List.mem_append, List.mem_singleton, or_true]
              split
              · exact bank.cancel_cancel
              · rfl
            · simp [here, Ne.symm here]
          · exact ⟨openedNow.trans (opened first).1, coordinator.trans (opened first).2⟩
          · exact coordinator ▸ opens closed (openedNow.symm.trans now)
      | cancel =>
          rw [next, Query.cancel, if_pos cancelled]
          exact ⟨cancelled, fun post => (banks post).trans (by simp), opened, opens⟩
      | raiseFlag => exact ⟨rfl, fun post => (banks post).trans (by simp), opened, opens⟩

end Calls

/-! ## Calls of all kinds -/

/-- What has become of a query and the parties that are tied to it, if one of its calls was the first to
raise the flag. -/
structure Ended (query : Query) (early : List Call) (first : Call) (late : List Call) : Prop where
  /-- Whoever checks finds the query cancelled. -/
  check : (query.after (early ++ first :: late)).check = .error Scan.queryCancelled
  /-- The coordinator that the query opened is cancelled and sends its waiters away, if the query raised
  the flag itself or has opened the coordinator since. -/
  coordinator : (query.after (early ++ first :: late)).opened = true →
    first = .cancel ∨ (query.after early).opened = false →
    ∃ coordinator, (query.after (early ++ first :: late)).network.coordinator = some coordinator ∧
      coordinator.cancelled = true ∧
      ∀ filter entry, coordinator.entry filter = .ok entry → ∀ since span,
        (Network.await (Network.coordinatorEntry filter) since span).outcome
            (query.after (early ++ first :: late)).network =
          (.ok .cancelled, (query.after (early ++ first :: late)).network)
  /-- So does every bank that is tied to the query, if the query raised the flag itself or the bank has
  been tied to it since. -/
  banks : ∀ post bank, query.network.bank? post = some bank →
    first = .cancel ∧ .adopt post ∈ early ∨ .adopt post ∈ late →
    ∀ filter entry, bank.entry filter = .ok entry → ∀ since span,
      (Network.await (Network.bankEntry post filter) since span).outcome
          (query.after (early ++ first :: late)).network =
        (.ok .cancelled, (query.after (early ++ first :: late)).network)
  /-- A flag that is raised alone leaves the coordinator alone, -/
  coordinatorStays : first = .raiseFlag → (query.after early).opened = true →
    ∃ coordinator, (query.after early).network.coordinator = some coordinator ∧
      coordinator.cancelled = false ∧
      (query.after (early ++ first :: late)).network.coordinator = some coordinator
  /-- and the banks, even if the query is cancelled after that. -/
  banksStay : first = .raiseFlag → ∀ post, .adopt post ∉ late →
    (query.after (early ++ first :: late)).network.bank? post = query.network.bank? post

section Ended

variable {query : Query} {early : List Call} {first : Call}

/-- The call that raises the flag cancels who is tied to the query by then, or nobody. -/
structure Raises (query : Query) (early : List Call) (first : Call) (base : Query) : Prop where
  cancelled : base.cancelled = true
  opened : base.opened = (query.after early).opened
  banks : ∀ post, base.network.bank? post = (query.network.bank? post).map fun bank =>
    if first = .cancel ∧ .adopt post ∈ early then bank.cancel else bank
  ended : first = .cancel → base.opened = true →
    ∃ coordinator, base.network.coordinator = some coordinator ∧ coordinator.Over
  stays : first = .raiseFlag → base.network.coordinator = (query.after early).network.coordinator

theorem raises_next
    (waits : query.Waits early (query.after early))
    (ends : first.ends = true) :
    query.Raises early first ((query.after early).next first) := by
  cases first with
  | openFilters descriptors => cases ends
  | adopt post => cases ends
  | cancel =>
      obtain ⟨cancelled, opened, banks, ended⟩ := waits.cancel
      exact ⟨cancelled, opened, fun post => (banks post).trans (by simp),
        fun _ isOpen => ended (opened.symm.trans isOpen), fun other => nomatch other⟩
  | raiseFlag =>
      exact ⟨rfl, rfl, fun post => (waits.banks post).trans (by simp), (fun other => nomatch other),
        fun _ => rfl⟩

/-- Whatever is called, the first call that raises the flag decides: if it cancels the query, everybody
who is tied to the query before or after is cancelled. -/
theorem ended_of_calls
    (fresh : query.Fresh)
    (quiet : ∀ call ∈ early, call.ends = false)
    (ends : first.ends = true)
    (late : List Call) :
    query.Ended early first late := by
  have waits := waits_after fresh quiet
  have raises := raises_next waits ends
  have calls : query.after (early ++ first :: late) = ((query.after early).next first).after late :=
    List.foldl_append
  have follows := calls ▸ follows_after raises.cancelled late
  generalize (query.after early).next first = base at raises follows
  constructor
  · rw [check, if_pos follows.cancelled]
  · intro opened condition
    obtain ⟨coordinator, there, ended⟩ : ∃ coordinator,
        (query.after (early ++ first :: late)).network.coordinator = some coordinator ∧
          coordinator.Over := by
      cases before : base.opened with
      | true =>
          rw [(follows.opened before).2]
          have notLate : (query.after early).opened ≠ false := by
            rw [← raises.opened, before]
            exact Bool.noConfusion
          exact raises.ended (condition.resolve_right notLate) before
      | false => exact follows.opens before opened
    exact ⟨coordinator, there, ended.cancelled, fun _ _ known => ended.await there known⟩
  · intro post bank there adopted filter entry known
    refine Bank.await_cancel ?_ known
    rw [follows.banks, raises.banks, there, Option.map_some, Option.map_some]
    obtain first | later := adopted
    · rw [if_pos first]
      split
      · rw [bank.cancel_cancel]
      · rfl
    · rw [if_pos later]
      split
      · rw [bank.cancel_cancel]
      · rfl
  · intro alone opened
    obtain ⟨coordinator, there, stands, _⟩ := waits.coordinator opened
    exact ⟨coordinator, there, stands,
      (follows.opened (raises.opened.trans opened)).2.trans ((raises.stays alone).trans there)⟩
  · intro alone post untied
    rw [follows.banks, raises.banks, Option.map_map]
    subst alone
    simp [untied, Function.comp_def]

end Ended

/-! ## A query with two workers -/

/-- A query before its filters are opened. -/
def sampleQuery : Query where
  id := ⟨1, 2⟩
  mode := .everywhere
  memLimit := 100
  network := { Network.sampleNetwork with coordinator := none }

/-- The query cancels its coordinator and the bank that it has adopted, and then the one that it adopts. -/
theorem ended_of_cancel :
    sampleQuery.Ended [.openFilters [Cluster.sampleDescriptor], .adopt 0] .cancel [.adopt 1, .cancel] ∧
      (sampleQuery.after [.openFilters [Cluster.sampleDescriptor], .adopt 0, .cancel, .adopt 1,
        .cancel]).opened = true :=
  ⟨ended_of_calls ⟨rfl, rfl, rfl⟩ (by decide) rfl _, rfl⟩

/-- Somebody who holds the token raises the flag first. When the query is cancelled after that, neither
its coordinator nor the bank that it adopted is. -/
theorem not_ended_of_raisedFlag :
    ¬ (∀ coordinator, (sampleQuery.after [.openFilters [Cluster.sampleDescriptor], .adopt 0, .raiseFlag,
        .cancel]).network.coordinator = some coordinator → coordinator.cancelled = true) ∧
      ¬ ∀ since span, ((Network.await (Network.bankEntry 0 ⟨7⟩) since span).outcome
        (sampleQuery.after [.openFilters [Cluster.sampleDescriptor], .adopt 0, .raiseFlag,
          .cancel]).network).1 = .ok .cancelled := by
  refine ⟨fun coordinators => ?_, fun banks => ?_⟩
  · cases coordinators _ rfl
  · have timedOut : ((Network.await (Network.bankEntry 0 ⟨7⟩) 5 0).outcome
        (sampleQuery.after [.openFilters [Cluster.sampleDescriptor], .adopt 0, .raiseFlag,
          .cancel]).network).1 = .ok .timedOut := by rfl
    cases timedOut.symm.trans (banks 5 0)

end Query

end Spillway
