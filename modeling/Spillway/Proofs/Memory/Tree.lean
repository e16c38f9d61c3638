import Mathlib.Algebra.BigOperators.Group.Finset.Basic
import Mathlib.Algebra.Order.BigOperators.Group.Finset
import Mathlib.Logic.Function.Basic
import Spillway.Proofs.Memory.Ledger

/-!
# Accounts as a tree

A ledger is a tree of accounts on which anyone may reserve and release. As long as amounts can be
counted, an account holds what was reserved on it directly and what the accounts that belong to it hold.
So every account above another one holds at least as much, and a release takes the same from all of them.
A reservation that does not fit somewhere changes nothing anywhere. The peak of an account is the most it
held at any time, and only forced reservations can take it beyond the limit.
-/

namespace Spillway
namespace Ledger

open Finset

/-- The accounts that belong to an account. -/
def members (ledger : Ledger) (position : Nat) : Finset Nat :=
  {member ∈ range ledger.accounts.size | ledger.parent? member = some position}

/-- A ledger after calls, with the ledgers before each of them, the latest first, what was reserved on
every account directly and not released since, and the accounts on which reservations were forced. Limits
and totals are amounts that can be counted. An account to which others belong is released directly only
up to what was reserved on it directly. -/
inductive Run : List Ledger → (Nat → Nat) → (Nat → Prop) → Ledger → Prop where
  | start : Run [] (fun _ => 0) (fun _ => False) {}
  | opens
      {past : List Ledger}
      {direct : Nat → Nat}
      {forced : Nat → Prop}
      {ledger : Ledger}
      (run : Run past direct forced ledger)
      (label : String)
      {limit : Nat}
      {parent : Option Nat}
      (countable : limit ≤ Account.capacity)
      (known : ∀ above, parent = some above → above < ledger.accounts.size) :
      Run (ledger :: past) direct forced (ledger.openAccount label limit parent).2
  | grants
      {past : List Ledger}
      {direct : Nat → Nat}
      {forced : Nat → Prop}
      {ledger : Ledger}
      {position bytes : Nat}
      (run : Run past direct forced ledger)
      (known : position < ledger.accounts.size)
      (granted : (ledger.tryReserve position bytes).1 = true) :
      Run (ledger :: past) (Function.update direct position (direct position + bytes)) forced
        (ledger.tryReserve position bytes).2
  | refuses
      {past : List Ledger}
      {direct : Nat → Nat}
      {forced : Nat → Prop}
      {ledger : Ledger}
      {position bytes : Nat}
      (run : Run past direct forced ledger)
      (known : position < ledger.accounts.size)
      (refused : (ledger.tryReserve position bytes).1 = false) :
      Run (ledger :: past) direct forced (ledger.tryReserve position bytes).2
  | forces
      {past : List Ledger}
      {direct : Nat → Nat}
      {forced : Nat → Prop}
      {ledger : Ledger}
      {position bytes : Nat}
      (run : Run past direct forced ledger)
      (known : position < ledger.accounts.size)
      (countable : ∀ place ∈ ledger.chain position, ledger.used place + bytes ≤ Account.capacity) :
      Run (ledger :: past) (Function.update direct position (direct position + bytes))
        (fun place => forced place ∨ place = position) (ledger.reserve position bytes)
  | releases
      {past : List Ledger}
      {direct : Nat → Nat}
      {forced : Nat → Prop}
      {ledger : Ledger}
      {position bytes : Nat}
      (run : Run past direct forced ledger)
      (known : position < ledger.accounts.size)
      (covered : (ledger.members position).Nonempty → bytes ≤ direct position) :
      Run (ledger :: past) (Function.update direct position (direct position - bytes)) forced
        (ledger.release position bytes)

/-! ## Refusals and releases along a chain -/

theorem tryReserve_of_fits
    {ledger : Ledger}
    {position bytes : Nat}
    (fits : ledger.fits position bytes = true) :
    ledger.tryReserve position bytes = (true, ledger.reserve position bytes) := by
  rw [tryReserve_eq, if_pos fits]

theorem tryReserve_of_not_fits
    {ledger : Ledger}
    {position bytes : Nat}
    (unfit : ¬ ledger.fits position bytes = true) :
    ledger.tryReserve position bytes = (false, ledger) := by
  rw [tryReserve_eq, if_neg unfit]

theorem fits_of_granted
    {ledger : Ledger}
    {position bytes : Nat}
    (granted : (ledger.tryReserve position bytes).1 = true) :
    ledger.fits position bytes = true := by
  by_contra unfit
  rw [tryReserve_of_not_fits unfit] at granted
  cases granted

theorem not_fits_of_refused
    {ledger : Ledger}
    {position bytes : Nat}
    (refused : (ledger.tryReserve position bytes).1 = false) :
    ¬ ledger.fits position bytes = true := by
  intro fits
  rw [tryReserve_of_fits fits] at refused
  cases refused

/-- What the first account of a chain does not hold is not given back by any. -/
theorem release_eq_release_min (ledger : Ledger) (position bytes : Nat) :
    ledger.release position bytes =
      ledger.release position (min bytes (ledger.used position)) := by
  obtain ⟨above, chain⟩ : ∃ above, ledger.chain position = position :: above := by
    rw [chain]
    split <;> exact ⟨_, rfl⟩
  have uncut : min (min bytes (ledger.used position)) (ledger.used position) =
      min bytes (ledger.used position) :=
    Nat.min_eq_left (Nat.min_le_right _ _)
  unfold release
  rw [chain, refundAlong, refundAlong]
  change refundAlong _ (min bytes (ledger.used position)) above =
    refundAlong (ledger.modify position (·.refund (min (min bytes _) (ledger.used position))))
      (min (min bytes _) (ledger.used position)) above
  rw [uncut]
  rfl

/-! ## The accounts of a chain as members of one another -/

section Chain

variable {ledger : Ledger} {position place child other : Nat}

theorem mem_members_iff :
    child ∈ ledger.members place ↔
      child < ledger.accounts.size ∧ ledger.parent? child = some place := by
  rw [members, mem_filter, mem_range]

/-- The account above one of a chain is in the chain, and further up. -/
theorem mem_chain_of_parent?
    (member : child ∈ ledger.chain position)
    (above : ledger.parent? child = some place) :
    place ∈ ledger.chain position ∧ place ≠ position := by
  refine ⟨?_, Nat.ne_of_lt (Nat.lt_of_lt_of_le (lt_of_parent? above) (le_of_mem_chain member))⟩
  induction position using chain.induct ledger with
  | case1 position last =>
      rw [chain_of_parent?_eq_none last, List.mem_singleton] at member
      subst member
      cases last.symm.trans above
  | case2 position parent next inductionHypothesis =>
      rw [chain_of_parent?_eq_some next, List.mem_cons] at member ⊢
      obtain rfl | member := member
      · obtain rfl := Option.some.inj (next.symm.trans above)
        exact .inr (mem_chain_self ledger _)
      · exact .inr (inductionHypothesis member)

/-- Whatever is further up in a chain is above one of the chain. -/
theorem exists_below_of_mem_chain
    (member : place ∈ ledger.chain position)
    (further : place ≠ position) :
    ∃ child ∈ ledger.chain position, ledger.parent? child = some place := by
  induction position using chain.induct ledger with
  | case1 position last =>
      rw [chain_of_parent?_eq_none last, List.mem_singleton] at member
      exact absurd member further
  | case2 position parent next inductionHypothesis =>
      rw [chain_of_parent?_eq_some next] at member ⊢
      have member := (List.mem_cons.mp member).resolve_left further
      by_cases first : place = parent
      · exact ⟨position, List.mem_cons_self, first ▸ next⟩
      · obtain ⟨child, inside, above⟩ := inductionHypothesis member first
        exact ⟨child, List.mem_cons_of_mem _ inside, above⟩

/-- Only one account of a chain is right below another one. -/
theorem eq_of_below_of_mem_chain
    (one : child ∈ ledger.chain position)
    (another : other ∈ ledger.chain position)
    (above : ledger.parent? child = some place)
    (aboveOther : ledger.parent? other = some place) :
    child = other := by
  induction position using chain.induct ledger with
  | case1 position last =>
      rw [chain_of_parent?_eq_none last, List.mem_singleton] at one another
      exact one.trans another.symm
  | case2 position parent next inductionHypothesis =>
      rw [chain_of_parent?_eq_some next, List.mem_cons] at one another
      -- What lies right above the first account is the start of the rest, which nothing of the rest is below.
      have apart : ∀ {below}, below ∈ ledger.chain parent → ledger.parent? below ≠ some parent :=
        fun inside above => (mem_chain_of_parent? inside above).2 rfl
      obtain rfl | one := one <;> obtain rfl | another := another
      · rfl
      · obtain rfl := Option.some.inj (next.symm.trans above)
        exact absurd aboveOther (apart another)
      · obtain rfl := Option.some.inj (next.symm.trans aboveOther)
        exact absurd above (apart one)
      · exact inductionHypothesis one another

/-- What every account of a chain gains, the members of an account gain together if the account is
further up in the chain. -/
theorem sum_members_chain
    (known : position < ledger.accounts.size)
    (place bytes : Nat) :
    ∑ child ∈ ledger.members place, (if child ∈ ledger.chain position then bytes else 0) =
      if place ∈ ledger.chain position ∧ place ≠ position then bytes else 0 := by
  split
  case isTrue further =>
      obtain ⟨child, inside, above⟩ := exists_below_of_mem_chain further.1 further.2
      have member : child ∈ ledger.members place :=
        mem_members_iff.mpr ⟨Nat.lt_of_le_of_lt (le_of_mem_chain inside) known, above⟩
      rw [sum_eq_single_of_mem child member, if_pos inside]
      intro other belongs different
      refine if_neg fun insideToo => different ?_
      exact eq_of_below_of_mem_chain insideToo inside (mem_members_iff.mp belongs).2 above
  case isFalse outside =>
      refine sum_eq_zero fun child belongs => if_neg fun inside => outside ?_
      exact mem_chain_of_parent? inside (mem_members_iff.mp belongs).2

end Chain

/-! ## What a ledger keeps -/

/-- What every account of the ledger holds was reserved on it directly or is held by its members, and its
peak is the most that it held at any of the times. -/
structure Balanced
    (past : List Ledger)
    (direct : Nat → Nat)
    (forced : Nat → Prop)
    (ledger : Ledger) : Prop where
  countable : ∀ place, (ledger.account place).limit ≤ Account.capacity
  unknown : ∀ place, ledger.accounts.size ≤ place → direct place = 0 ∧ ¬ forced place
  used : ∀ place, ledger.used place = direct place + ∑ child ∈ ledger.members place, ledger.used child
  peak : ∀ place, ledger.peak place =
    ((ledger :: past).map fun moment => moment.used place).foldr max 0
  within : ∀ place, (∀ position, forced position → place ∉ ledger.chain position) →
    ledger.peak place ≤ (ledger.account place).limit

section Balanced

variable {past : List Ledger} {direct : Nat → Nat} {forced : Nat → Prop} {ledger : Ledger}
  {position bytes : Nat}

theorem Balanced.used_le_peak
    (balanced : Balanced past direct forced ledger)
    (place : Nat) :
    ledger.used place ≤ ledger.peak place := by
  rw [balanced.peak, List.map_cons, List.foldr_cons]
  exact Nat.le_max_left _ _

/-- Whatever an account holds, the accounts above it hold too. -/
theorem Balanced.used_le
    (balanced : Balanced past direct forced ledger)
    (known : position < ledger.accounts.size) :
    ∀ place ∈ ledger.chain position, ledger.used position ≤ ledger.used place := by
  induction position using chain.induct ledger with
  | case1 position last =>
      intro place member
      rw [chain_of_parent?_eq_none last, List.mem_singleton] at member
      exact Nat.le_of_eq (congrArg ledger.used member.symm)
  | case2 position parent next inductionHypothesis =>
      have belongs : position ∈ ledger.members parent := mem_members_iff.mpr ⟨known, next⟩
      have step : ledger.used position ≤ ledger.used parent := by
        rw [balanced.used parent]
        exact Nat.le_add_left_of_le (single_le_sum (fun _ _ => Nat.zero_le _) belongs)
      intro place member
      rw [chain_of_parent?_eq_some next, List.mem_cons] at member
      obtain rfl | above := member
      · exact Nat.le_refl _
      · exact Nat.le_trans step
          (inductionHypothesis (Nat.lt_trans (lt_of_parent? next) known) place above)

/-- A reservation is granted if it stays within the limits of the account and of all accounts above. -/
theorem Balanced.fits_iff
    (balanced : Balanced past direct forced ledger) :
    ledger.fits position bytes = true ↔
      ∀ place ∈ ledger.chain position,
        ledger.used place + bytes ≤ (ledger.account place).limit := by
  unfold fits
  rw [List.all_eq_true]
  refine forall_congr' fun place => forall_congr' fun _ => ?_
  rw [Account.fits, Bool.and_eq_true, decide_eq_true_eq, decide_eq_true_eq]
  exact and_iff_right_of_imp fun within => Nat.le_trans within (balanced.countable place)

/-- A release takes the same from an account and from all accounts above it, and nothing from others. -/
theorem Balanced.used_release
    (balanced : Balanced past direct forced ledger)
    (known : position < ledger.accounts.size)
    (bytes place : Nat) :
    (ledger.release position bytes).used place +
      (if place ∈ ledger.chain position then min bytes (ledger.used position) else 0) =
        ledger.used place := by
  rw [release_eq_release_min]
  refine Ledger.used_release known (fun other member => ?_) place
  exact Nat.le_trans (Nat.min_le_right _ _) (balanced.used_le known other member)

/-! ## Calls -/

theorem members_congr
    {after : Ledger}
    (size : after.accounts.size = ledger.accounts.size)
    (parents : ∀ place, (after.account place).parent = (ledger.account place).parent)
    (place : Nat) :
    after.members place = ledger.members place := by
  unfold members parent?
  simp only [size, parents]

theorem parent_reserve
    (known : position < ledger.accounts.size)
    (bytes place : Nat) :
    ((ledger.reserve position bytes).account place).parent = (ledger.account place).parent := by
  rw [account_reserve known]
  split <;> rfl

theorem parent_release (ledger : Ledger) (position bytes place : Nat) :
    ((ledger.release position bytes).account place).parent = (ledger.account place).parent :=
  kept_refundAlong (fun _ _ => rfl) ledger bytes _ place

theorem used_reserve_of_countable
    (known : position < ledger.accounts.size)
    (countable : ∀ place ∈ ledger.chain position, ledger.used place + bytes ≤ Account.capacity)
    (place : Nat) :
    (ledger.reserve position bytes).used place =
      ledger.used place + if place ∈ ledger.chain position then bytes else 0 := by
  rw [Ledger.used, account_reserve known]
  split
  case isTrue member => exact Nat.min_eq_left (countable place member)
  case isFalse => rfl

theorem Balanced.peak_reserve
    (balanced : Balanced past direct forced ledger)
    (known : position < ledger.accounts.size)
    (bytes place : Nat) :
    (ledger.reserve position bytes).peak place =
      max ((ledger.reserve position bytes).used place) (ledger.peak place) := by
  have before := balanced.used_le_peak place
  rw [Ledger.peak, Ledger.used, account_reserve known]
  split
  case isTrue member => exact Nat.max_comm _ _
  case isFalse => exact (Nat.max_eq_right before).symm

/-- Charges that can be counted leave the ledger balanced, with the account itself among those that were
charged directly. -/
theorem Balanced.reserve
    {nextForced : Nat → Prop}
    (balanced : Balanced past direct forced ledger)
    (known : position < ledger.accounts.size)
    (countable : ∀ place ∈ ledger.chain position, ledger.used place + bytes ≤ Account.capacity)
    (forces : ∀ place, nextForced place ↔ forced place ∨ place = position ∧ nextForced position)
    (within : ¬ nextForced position → ∀ place ∈ ledger.chain position,
      ledger.used place + bytes ≤ (ledger.account place).limit) :
    Balanced (ledger :: past) (Function.update direct position (direct position + bytes)) nextForced
      (ledger.reserve position bytes) := by
  have used := used_reserve_of_countable known countable
  have peak := balanced.peak_reserve known bytes
  have members := members_congr (size_reserve ledger position bytes) (parent_reserve known bytes)
  refine
    { countable := fun place => by
        rw [limit_reserve]
        exact balanced.countable place
      unknown := fun place outside => ?unknown
      used := fun place => ?used
      peak := fun place => by
        rw [List.map_cons, List.foldr_cons, ← balanced.peak, peak]
      within := fun place spared => ?within }
  case unknown =>
    rw [size_reserve] at outside
    obtain ⟨nothing, unforced⟩ := balanced.unknown place outside
    have different : place ≠ position := (Nat.lt_of_lt_of_le known outside).ne'
    rw [Function.update_of_ne different, forces]
    exact ⟨nothing, fun either => either.elim unforced fun same => different same.1⟩
  case used =>
    rw [used, members, sum_congr rfl fun child _ => used child, sum_add_distrib,
      sum_members_chain known, balanced.used place]
    by_cases here : place = position
    · subst here
      rw [Function.update_self, if_pos (mem_chain_self ledger place), if_neg fun further => further.2 rfl]
      omega
    · rw [Function.update_of_ne here]
      simp only [here, ne_eq, not_false_eq_true, and_true]
      omega
  case within =>
    simp only [chain_reserve known] at spared
    have before := balanced.within place fun other was => spared other ((forces other).mpr (.inl was))
    rw [limit_reserve, peak, used]
    refine Nat.max_le.mpr ⟨?_, before⟩
    split
    case isTrue member =>
        by_cases now : nextForced position
        · exact absurd member (spared position now)
        · exact within now place member
    case isFalse => exact Nat.le_trans (balanced.used_le_peak place) before

theorem Balanced.release
    (balanced : Balanced past direct forced ledger)
    (known : position < ledger.accounts.size)
    (covered : (ledger.members position).Nonempty → bytes ≤ direct position) :
    Balanced (ledger :: past) (Function.update direct position (direct position - bytes)) forced
      (ledger.release position bytes) := by
  have used := balanced.used_release known bytes
  have lower : ∀ place, (ledger.release position bytes).used place ≤ ledger.used place :=
    fun place => Nat.le.intro (used place)
  have members := members_congr (size_release ledger position bytes)
    (parent_release ledger position bytes)
  refine
    { countable := fun place => by
        rw [limit_release]
        exact balanced.countable place
      unknown := fun place outside => ?unknown
      used := fun place => ?used
      peak := fun place => ?peak
      within := fun place spared => ?within }
  case unknown =>
    rw [size_release] at outside
    obtain ⟨nothing, unforced⟩ := balanced.unknown place outside
    rw [Function.update_of_ne (Nat.lt_of_lt_of_le known outside).ne']
    exact ⟨nothing, unforced⟩
  case used =>
    have below : ∑ child ∈ ledger.members place, (ledger.release position bytes).used child +
        (if place ∈ ledger.chain position ∧ place ≠ position then min bytes (ledger.used position)
          else 0) = ∑ child ∈ ledger.members place, ledger.used child := by
      rw [← sum_members_chain known, ← sum_add_distrib]
      exact sum_congr rfl fun child _ => used child
    have here := used place
    have balance := balanced.used place
    rw [members]
    by_cases same : place = position
    · subst same
      rw [if_neg fun further => further.2 rfl] at below
      rw [if_pos (mem_chain_self ledger place)] at here
      rw [Function.update_self]
      -- Without members all that is held was reserved directly, else no more is released than that.
      obtain none | some := (ledger.members place).eq_empty_or_nonempty
      · rw [none, sum_empty] at balance ⊢
        omega
      · have enough := covered some
        omega
    · rw [Function.update_of_ne same]
      simp only [same, ne_eq, not_false_eq_true, and_true] at below
      omega
  case peak =>
    rw [List.map_cons, List.foldr_cons, ← balanced.peak, peak_release]
    exact (Nat.max_eq_right (Nat.le_trans (lower place) (balanced.used_le_peak place))).symm
  case within =>
    simp only [chain_release] at spared
    rw [limit_release, peak_release]
    exact balanced.within place spared

/-- A new account holds nothing, so whichever account it belongs to, its members hold what they held. -/
theorem sum_members_openAccount
    (ledger : Ledger)
    (label : String)
    (limit : Nat)
    (parent : Option Nat)
    (place : Nat) :
    ∑ child ∈ (ledger.openAccount label limit parent).2.members place, ledger.used child =
      ∑ child ∈ ledger.members place, ledger.used child := by
  have size := size_openAccount ledger label limit parent
  have parents : ∀ child < ledger.accounts.size,
      (ledger.openAccount label limit parent).2.parent? child = ledger.parent? child := by
    intro child old
    unfold parent?
    rw [account_openAccount, if_neg (Nat.ne_of_lt old)]
  refine (sum_subset (fun child member => ?_) fun child member new => ?_).symm
  · obtain ⟨old, above⟩ := mem_members_iff.mp member
    exact mem_members_iff.mpr ⟨size ▸ Nat.lt_succ_of_lt old, (parents child old).trans above⟩
  · obtain ⟨inside, above⟩ := mem_members_iff.mp member
    by_cases old : child < ledger.accounts.size
    · exact absurd (mem_members_iff.mpr ⟨old, (parents child old).symm.trans above⟩) new
    · exact used_eq_zero_of_size_le (Nat.le_of_not_lt old)

/-- A new account holds nothing, and belongs to an account that is there. -/
theorem Balanced.opens
    {limit : Nat}
    {parent : Option Nat}
    (balanced : Balanced past direct forced ledger)
    (label : String)
    (countable : limit ≤ Account.capacity) :
    Balanced (ledger :: past) direct forced (ledger.openAccount label limit parent).2 := by
  have size := size_openAccount ledger label limit parent
  have account := account_openAccount ledger label limit parent
  refine
    { countable := fun place => ?countable
      unknown := fun place outside => balanced.unknown place (by omega)
      used := fun place => ?used
      peak := fun place => ?peak
      within := fun place spared => ?within }
  case countable =>
    rw [account]
    split
    · exact countable
    · exact balanced.countable place
  case used =>
    rw [sum_congr rfl fun child _ => used_openAccount ledger label limit parent child,
      sum_members_openAccount, used_openAccount]
    exact balanced.used place
  case peak =>
    rw [List.map_cons, List.foldr_cons, ← balanced.peak, used_openAccount, peak_openAccount]
    exact (Nat.max_eq_right (balanced.used_le_peak place)).symm
  case within =>
    rw [peak_openAccount, account]
    split
    case isTrue new =>
        rw [peak_eq_zero_of_size_le (Nat.le_of_eq new.symm)]
        exact Nat.zero_le _
    case isFalse =>
        refine balanced.within place fun position was => ?_
        have old : position < ledger.accounts.size := by
          by_contra outside
          exact (balanced.unknown position (Nat.le_of_not_lt outside)).2 was
        rw [← chain_openAccount old label limit parent]
        exact spared position was

theorem balanced_start : Balanced [] (fun _ => 0) (fun _ => False) {} where
  countable _ := Nat.le_refl _
  unknown _ _ := ⟨rfl, id⟩
  used _ := rfl
  peak _ := rfl
  within _ _ := Nat.zero_le _

theorem Run.balanced (run : Run past direct forced ledger) : Balanced past direct forced ledger := by
  induction run with
  | start => exact balanced_start
  | opens _ label countable _ balanced => exact balanced.opens label countable
  | @grants past direct forced ledger position bytes _ known granted balanced =>
      have fits := fits_of_granted granted
      have within := balanced.fits_iff.mp fits
      rw [tryReserve_of_fits fits]
      refine balanced.reserve known
        (fun place member => Nat.le_trans (within place member) (balanced.countable place))
        (fun place => ⟨.inl, fun either => either.elim id fun same => same.1 ▸ same.2⟩) fun _ => within
  | refuses _ _ refused balanced =>
      rw [tryReserve_of_not_fits (not_fits_of_refused refused)]
      refine { balanced with peak := fun place => ?_ }
      rw [List.map_cons, List.foldr_cons, ← balanced.peak]
      exact (Nat.max_eq_right (balanced.used_le_peak place)).symm
  | forces _ known countable balanced =>
      refine balanced.reserve known countable (fun place => ?_) fun unforced => absurd (.inr rfl) unforced
      exact or_congr_right (and_iff_left (.inr rfl)).symm
  | releases _ known covered balanced => exact balanced.release known covered

end Balanced

/-! ## The tree -/

/-- The accounts of the ledger are a tree of sums, in which reservations are made everywhere or nowhere
and releases take the same everywhere. -/
structure Summed
    (past : List Ledger)
    (direct : Nat → Nat)
    (forced : Nat → Prop)
    (ledger : Ledger) : Prop where
  used : ∀ place, ledger.used place = direct place + ∑ child ∈ ledger.members place, ledger.used child
  granted : ∀ position bytes, (ledger.tryReserve position bytes).1 = true ↔
    ∀ place ∈ ledger.chain position, ledger.used place + bytes ≤ (ledger.account place).limit
  refused : ∀ position bytes, (ledger.tryReserve position bytes).1 = false →
    (ledger.tryReserve position bytes).2 = ledger
  released : ∀ position < ledger.accounts.size, ∀ bytes place,
    (ledger.release position bytes).used place +
      (if place ∈ ledger.chain position then min bytes (ledger.used position) else 0) =
        ledger.used place
  peak : ∀ place, ledger.peak place =
    ((ledger :: past).map fun moment => moment.used place).foldr max 0
  within : ∀ place, (∀ position, forced position → place ∉ ledger.chain position) →
    ledger.peak place ≤ (ledger.account place).limit

/-- Whatever accounts were opened, and in whichever order bytes were reserved, forced and released on them,
every account holds what was reserved on it directly and what its members hold. A reservation is granted
exactly if it fits the account and all accounts above it, and changes nothing otherwise. A release takes
from all of them what the account gives up. A peak is the most that was ever held, and it stays within the
limit unless a reservation was forced on the account or on one below it. -/
theorem summed_of_run
    {past : List Ledger}
    {direct : Nat → Nat}
    {forced : Nat → Prop}
    {ledger : Ledger}
    (run : Run past direct forced ledger) :
    Summed past direct forced ledger := by
  have balanced := run.balanced
  refine
    { used := balanced.used
      granted := fun position bytes => ?_
      refused := fun position bytes refused => ?_
      released := fun position known bytes => balanced.used_release known bytes
      peak := balanced.peak
      within := balanced.within }
  · rw [← balanced.fits_iff]
    exact ⟨fits_of_granted, fun fits => congrArg Prod.fst (tryReserve_of_fits fits)⟩
  · exact congrArg Prod.snd (tryReserve_of_not_fits (not_fits_of_refused refused))

namespace Sample

/-- An account of a query, and two that belong to it. -/
def opened : Ledger :=
  ((((({} : Ledger).openAccount "query" 100).2.openAccount "join" 80 (some 0)).2).openAccount
    "aggregation" 80 (some 0)).2

/-- The ledger after 70 bytes were reserved on the first of them. -/
def reserved : Ledger :=
  (opened.tryReserve 1 70).2

/-- The ledger after 40 bytes were refused to the other one, which has room for them. -/
def refused : Ledger :=
  (reserved.tryReserve 2 40).2

/-- The ledger after more was released on the first one than it holds. -/
def released : Ledger :=
  refused.release 1 500

/-- The ledger after a reservation beyond all limits was forced on the other one. -/
def forced : Ledger :=
  released.reserve 2 200

end Sample

/-- What does not fit the query is refused, a release that is too large takes no more from the query than
from the account it was made on, and a forced reservation takes both beyond their limits. -/
theorem summed_of_forced :
    ∃ past direct forced, Run past direct forced Sample.forced ∧
      Sample.refused = Sample.reserved ∧ Sample.released.used 0 = 0 ∧
      Sample.forced.used 0 = 200 ∧ Summed past direct forced Sample.forced := by
  have query := Run.start.opens "query" (show 100 ≤ Account.capacity by decide)
    (show ∀ above, none = some above → above < 0 from nofun)
  have join := query.opens "join" (show 80 ≤ Account.capacity by decide)
    (show ∀ above, some 0 = some above → above < 1 by simp)
  have opened := join.opens "aggregation" (show 80 ≤ Account.capacity by decide)
    (show ∀ above, some 0 = some above → above < 2 by simp)
  have reserved := Run.grants opened (show 1 < Sample.opened.accounts.size by decide)
    (show (Sample.opened.tryReserve 1 70).1 = true by decide +kernel)
  have refused := Run.refuses reserved (show 2 < Sample.reserved.accounts.size by decide +kernel)
    (show (Sample.reserved.tryReserve 2 40).1 = false by decide +kernel)
  have released := Run.releases refused (show 1 < Sample.refused.accounts.size by decide +kernel)
    (show (Sample.refused.members 1).Nonempty → 500 ≤ _ by decide +kernel)
  have forced := Run.forces released (show 2 < Sample.released.accounts.size by decide +kernel)
    (show ∀ place ∈ Sample.released.chain 2, Sample.released.used place + 200 ≤ Account.capacity by
      decide +kernel)
  exact ⟨_, _, _, forced, by decide +kernel, by decide +kernel, by decide +kernel, summed_of_run forced⟩

end Ledger
end Spillway
