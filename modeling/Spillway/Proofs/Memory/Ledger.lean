import Mathlib.Data.List.Nodup
import Spillway.Memory.Ledger

/-!
# Balances of a ledger

An account and the accounts above it are all different, so a charge reaches each of them once, and a
refund that none of them cuts short gives back the same number of bytes everywhere. Charges are counted
in full as long as no account is filled up to what can be counted, which its peak would tell forever
after. The bytes of one account are then found, beside those of others, in every account above it.
-/

namespace Spillway

namespace Account

@[simp] theorem parent_charge (account : Account) (bytes : Nat) :
    (account.charge bytes).parent = account.parent := rfl

@[simp] theorem parent_refund (account : Account) (bytes : Nat) :
    (account.refund bytes).parent = account.parent := rfl

@[simp] theorem used_charge (account : Account) (bytes : Nat) :
    (account.charge bytes).used = min (account.used + bytes) capacity := rfl

@[simp] theorem peak_charge (account : Account) (bytes : Nat) :
    (account.charge bytes).peak = max account.peak (min (account.used + bytes) capacity) := rfl

@[simp] theorem used_refund (account : Account) (bytes : Nat) :
    (account.refund bytes).used = account.used - bytes := rfl

@[simp] theorem peak_refund (account : Account) (bytes : Nat) :
    (account.refund bytes).peak = account.peak := rfl

end Account

namespace Ledger

/-! ## Accounts and the accounts above them -/

theorem account_modify
    {ledger : Ledger}
    {position : Nat}
    (known : position < ledger.accounts.size)
    (change : Account → Account)
    (place : Nat) :
    (ledger.modify position change).account place =
      if place = position then change (ledger.account place) else ledger.account place := by
  unfold account modify
  rw [Array.getElem?_modify]
  by_cases same : position = place
  · subst same
    simp [known]
  · simp [same, Ne.symm same]

/-- What a change of one account keeps, it keeps everywhere. -/
theorem kept_modify
    {β : Type}
    {field : Account → β}
    {change : Account → Account}
    (kept : ∀ account, field (change account) = field account)
    (ledger : Ledger)
    (position place : Nat) :
    field ((ledger.modify position change).account place) = field (ledger.account place) := by
  unfold account modify
  rw [Array.getElem?_modify]
  cases ledger.accounts[place]? <;> split <;> simp [kept]

theorem chain_of_parent?_eq_none
    {ledger : Ledger}
    {position : Nat}
    (last : ledger.parent? position = none) :
    ledger.chain position = [position] := by
  rw [chain]
  split <;> simp_all

theorem chain_of_parent?_eq_some
    {ledger : Ledger}
    {position parent : Nat}
    (next : ledger.parent? position = some parent) :
    ledger.chain position = position :: ledger.chain parent := by
  rw [chain]
  split <;> simp_all

theorem mem_chain_self (ledger : Ledger) (position : Nat) : position ∈ ledger.chain position := by
  rw [chain]
  split <;> exact List.mem_cons_self

/-- Accounts come after the accounts above them. -/
theorem le_of_mem_chain
    {ledger : Ledger}
    {position place : Nat}
    (member : place ∈ ledger.chain position) :
    place ≤ position := by
  induction position using chain.induct ledger with
  | case1 position last =>
      rw [chain_of_parent?_eq_none last, List.mem_singleton] at member
      exact Nat.le_of_eq member
  | case2 position parent next inductionHypothesis =>
      rw [chain_of_parent?_eq_some next, List.mem_cons] at member
      cases member with
      | inl same => exact Nat.le_of_eq same
      | inr above => exact Nat.le_trans (inductionHypothesis above) (Nat.le_of_lt (lt_of_parent? next))

theorem nodup_chain (ledger : Ledger) (position : Nat) : (ledger.chain position).Nodup := by
  induction position using chain.induct ledger with
  | case1 position last =>
      rw [chain_of_parent?_eq_none last]
      exact List.nodup_singleton position
  | case2 position parent next inductionHypothesis =>
      rw [chain_of_parent?_eq_some next, List.nodup_cons]
      refine ⟨fun above => ?_, inductionHypothesis⟩
      exact Nat.not_le_of_lt (lt_of_parent? next) (le_of_mem_chain above)

theorem chain_congr
    {first second : Ledger}
    {position : Nat}
    (same : ∀ place ≤ position, (first.account place).parent = (second.account place).parent) :
    first.chain position = second.chain position := by
  have here : first.parent? position = second.parent? position := by
    unfold parent?
    rw [same position (Nat.le_refl position)]
  induction position using chain.induct first with
  | case1 position last =>
      rw [chain_of_parent?_eq_none last, chain_of_parent?_eq_none (here.symm.trans last)]
  | case2 position parent next inductionHypothesis =>
      have earlier := Nat.le_of_lt (lt_of_parent? next)
      have sameAbove : ∀ place ≤ parent,
          (first.account place).parent = (second.account place).parent :=
        fun place bounded => same place (Nat.le_trans bounded earlier)
      rw [chain_of_parent?_eq_some next, chain_of_parent?_eq_some (here.symm.trans next),
        inductionHypothesis sameAbove]
      unfold parent?
      rw [sameAbove parent (Nat.le_refl parent)]

/-! ## What charges and refunds change -/

@[simp] theorem size_reserve (ledger : Ledger) (position bytes : Nat) :
    (ledger.reserve position bytes).accounts.size = ledger.accounts.size := by
  unfold reserve
  generalize ledger.chain position = places
  induction places generalizing ledger with
  | nil => rfl
  | cons place places inductionHypothesis =>
      rw [List.foldl_cons, inductionHypothesis, size_modify]

@[simp] theorem size_refundAlong (ledger : Ledger) (bytes : Nat) (places : List Nat) :
    (ledger.refundAlong bytes places).accounts.size = ledger.accounts.size := by
  induction places generalizing ledger bytes with
  | nil => rfl
  | cons place places inductionHypothesis =>
      rw [refundAlong, inductionHypothesis, size_modify]

@[simp] theorem size_release (ledger : Ledger) (position bytes : Nat) :
    (ledger.release position bytes).accounts.size = ledger.accounts.size :=
  size_refundAlong ledger bytes _

/-- Changing different accounts one after the other changes each of them once. -/
theorem account_foldl_modify
    {ledger : Ledger}
    {places : List Nat}
    (distinct : places.Nodup)
    (known : ∀ place ∈ places, place < ledger.accounts.size)
    (change : Account → Account)
    (place : Nat) :
    (places.foldl (fun ledger place => ledger.modify place change) ledger).account place =
      if place ∈ places then change (ledger.account place) else ledger.account place := by
  induction places generalizing ledger with
  | nil => simp
  | cons first places inductionHypothesis =>
      rw [List.nodup_cons] at distinct
      rw [List.foldl_cons, inductionHypothesis distinct.2 (by simp_all),
        account_modify (known first List.mem_cons_self)]
      by_cases same : place = first
      · simp [same, distinct.1]
      · simp [same]

/-- A charge reaches an account and all accounts above it. -/
theorem account_reserve
    {ledger : Ledger}
    {position : Nat}
    (known : position < ledger.accounts.size)
    (bytes place : Nat) :
    (ledger.reserve position bytes).account place =
      if place ∈ ledger.chain position then (ledger.account place).charge bytes
      else ledger.account place :=
  account_foldl_modify (nodup_chain ledger position)
    (fun _ member => Nat.lt_of_le_of_lt (le_of_mem_chain member) known) _ place

/-- Where every account holds the bytes that are given back, all of them give back the same. -/
theorem account_refundAlong
    {ledger : Ledger}
    {places : List Nat}
    {bytes : Nat}
    (distinct : places.Nodup)
    (known : ∀ place ∈ places, place < ledger.accounts.size)
    (held : ∀ place ∈ places, bytes ≤ ledger.used place)
    (place : Nat) :
    (ledger.refundAlong bytes places).account place =
      if place ∈ places then (ledger.account place).refund bytes else ledger.account place := by
  induction places generalizing ledger with
  | nil => simp [refundAlong]
  | cons first places inductionHypothesis =>
      rw [List.nodup_cons] at distinct
      have change := account_modify (known first List.mem_cons_self) (·.refund bytes)
      have uncut : min bytes (ledger.account first).used = bytes :=
        Nat.min_eq_left (held first List.mem_cons_self)
      have stillHeld : ∀ other ∈ places,
          bytes ≤ (ledger.modify first (·.refund bytes)).used other := by
        intro other member
        have apart : other ≠ first := fun same => distinct.1 (same ▸ member)
        rw [used, change, if_neg apart]
        exact held other (List.mem_cons_of_mem first member)
      rw [refundAlong, uncut, inductionHypothesis distinct.2 (by simp_all) stillHeld, change]
      by_cases same : place = first
      · simp [same, distinct.1]
      · simp [same]

theorem account_release
    {ledger : Ledger}
    {position bytes : Nat}
    (known : position < ledger.accounts.size)
    (held : ∀ place ∈ ledger.chain position, bytes ≤ ledger.used place)
    (place : Nat) :
    (ledger.release position bytes).account place =
      if place ∈ ledger.chain position then (ledger.account place).refund bytes
      else ledger.account place :=
  account_refundAlong (nodup_chain ledger position)
    (fun _ member => Nat.lt_of_le_of_lt (le_of_mem_chain member) known) held place

/-- A refund reaches no other accounts. -/
theorem account_refundAlong_of_not_mem
    {places : List Nat}
    {place : Nat}
    (outside : place ∉ places)
    (ledger : Ledger)
    (bytes : Nat) :
    (ledger.refundAlong bytes places).account place = ledger.account place := by
  induction places generalizing ledger bytes with
  | nil => rfl
  | cons first places inductionHypothesis =>
      rw [List.mem_cons, not_or] at outside
      rw [refundAlong, inductionHypothesis outside.2]
      unfold account modify
      rw [Array.getElem?_modify, if_neg (Ne.symm outside.1)]

/-- An account gives back what it is asked for, or all that it holds. -/
theorem used_release_self
    {ledger : Ledger}
    {position : Nat}
    (known : position < ledger.accounts.size)
    (bytes : Nat) :
    (ledger.release position bytes).used position = ledger.used position - bytes := by
  obtain ⟨above, split⟩ : ∃ above, ledger.chain position = position :: above := by
    rw [chain]
    split <;> exact ⟨_, rfl⟩
  have apart := nodup_chain ledger position
  rw [split, List.nodup_cons] at apart
  rw [used, release, split, refundAlong, account_refundAlong_of_not_mem apart.1, account_modify known,
    if_pos rfl, Account.used_refund, used]
  omega

/-- A refund, cut short or not, keeps everything but the holdings. -/
theorem kept_refundAlong
    {β : Type}
    {field : Account → β}
    (kept : ∀ account bytes, field (account.refund bytes) = field account)
    (ledger : Ledger)
    (bytes : Nat)
    (places : List Nat)
    (place : Nat) :
    field ((ledger.refundAlong bytes places).account place) = field (ledger.account place) := by
  induction places generalizing ledger bytes with
  | nil => rfl
  | cons first places inductionHypothesis =>
      rw [refundAlong, inductionHypothesis, kept_modify fun account => kept account _]

@[simp] theorem chain_reserve
    {ledger : Ledger}
    {position : Nat}
    (known : position < ledger.accounts.size)
    (bytes other : Nat) :
    (ledger.reserve position bytes).chain other = ledger.chain other := by
  refine chain_congr fun place _ => ?_
  rw [account_reserve known]
  split <;> rfl

@[simp] theorem chain_release (ledger : Ledger) (position bytes other : Nat) :
    (ledger.release position bytes).chain other = ledger.chain other :=
  chain_congr fun place _ => kept_refundAlong (fun _ _ => rfl) ledger bytes _ place

@[simp] theorem peak_release (ledger : Ledger) (position bytes place : Nat) :
    (ledger.release position bytes).peak place = ledger.peak place :=
  kept_refundAlong (fun _ _ => rfl) ledger bytes _ place

theorem limit_reserve (ledger : Ledger) (position bytes place : Nat) :
    ((ledger.reserve position bytes).account place).limit = (ledger.account place).limit := by
  unfold reserve
  generalize ledger.chain position = places
  induction places generalizing ledger with
  | nil => rfl
  | cons first places inductionHypothesis =>
      rw [List.foldl_cons, inductionHypothesis]
      exact kept_modify (fun account => (rfl : (account.charge bytes).limit = account.limit))
        ledger first place

theorem limit_release (ledger : Ledger) (position bytes place : Nat) :
    ((ledger.release position bytes).account place).limit = (ledger.account place).limit :=
  kept_refundAlong (fun _ _ => rfl) ledger bytes _ place

/-! ## Reservations that are granted or refused -/

/-- Whether a reservation fits an account and every account above it. -/
def fits (ledger : Ledger) (position bytes : Nat) : Bool :=
  (ledger.chain position).all fun place => (ledger.account place).fits bytes

/-- Changes of two accounts can be made in either order. -/
theorem modify_modify_of_ne
    {one other : Nat}
    (different : one ≠ other)
    (ledger : Ledger)
    (change more : Account → Account) :
    (ledger.modify one change).modify other more = (ledger.modify other more).modify one change := by
  unfold modify
  congr 1
  apply Array.ext_getElem?
  intro place
  simp only [Array.getElem?_modify]
  by_cases here : one = place
  · simp [here, show other ≠ place from fun there => different (here.trans there.symm)]
  · simp [here]

/-- An account that charges do not reach can be changed before them as well as after. -/
theorem modify_foldl_charge
    {position : Nat}
    {places : List Nat}
    (outside : position ∉ places)
    (ledger : Ledger)
    (bytes : Nat)
    (change : Account → Account) :
    (places.foldl (fun ledger place => ledger.modify place (·.charge bytes)) ledger).modify position
        change =
      places.foldl (fun ledger place => ledger.modify place (·.charge bytes))
        (ledger.modify position change) := by
  induction places generalizing ledger with
  | nil => rfl
  | cons place places inductionHypothesis =>
      rw [List.mem_cons, not_or] at outside
      rw [List.foldl_cons, List.foldl_cons, inductionHypothesis outside.2,
        modify_modify_of_ne (Ne.symm outside.1)]

/-- What fits an account is counted in full. -/
theorem hold_eq_charge
    {account : Account}
    {bytes : Nat}
    (fits : account.fits bytes = true) :
    account.hold (account.used + bytes) = account.charge bytes := by
  simp only [Account.fits, Bool.and_eq_true, decide_eq_true_eq] at fits
  rw [Account.charge, Nat.min_eq_left fits.1]

theorem modify_hold
    {ledger : Ledger}
    {position bytes : Nat}
    (fits : (ledger.account position).fits bytes = true) :
    ledger.modify position (·.hold ((ledger.account position).used + bytes)) =
      ledger.modify position (·.charge bytes) := by
  have same := hold_eq_charge fits
  unfold modify
  congr 1
  apply Array.ext_getElem?
  intro place
  rw [Array.getElem?_modify, Array.getElem?_modify]
  split
  case isTrue here =>
    subst here
    unfold account at same ⊢
    cases found : ledger.accounts[position]? with
    | none => rfl
    | some held =>
        rw [found, Option.getD_some] at same
        rw [Option.getD_some, Option.map_some, Option.map_some, same]
  case isFalse => rfl

/-- A reservation is granted exactly if it fits the account and every account above it. All of them are
charged then, and none otherwise. -/
theorem tryReserve_eq (ledger : Ledger) (position bytes : Nat) :
    ledger.tryReserve position bytes =
      if ledger.fits position bytes then (true, ledger.reserve position bytes) else (false, ledger) := by
  induction position using chain.induct ledger with
  | case1 position last =>
      rw [tryReserve, fits, reserve, chain_of_parent?_eq_none last, List.all_cons, List.all_nil,
        Bool.and_true, List.foldl_cons, List.foldl_nil]
      refine ite_congr rfl (fun own => ?_) fun _ => rfl
      split
      · dsimp only
        rw [modify_hold own]
      · simp_all
  | case2 position parent next inductionHypothesis =>
      have apart : position ∉ ledger.chain parent :=
        fun member => Nat.not_le_of_lt (lt_of_parent? next) (le_of_mem_chain member)
      have chain := chain_of_parent?_eq_some next
      rw [tryReserve]
      by_cases own : (ledger.account position).fits bytes = true
      · rw [if_pos own]
        split
        · simp_all
        · next other found =>
          rw [next, Option.some.injEq] at found
          subst found
          rw [inductionHypothesis]
          by_cases above : ledger.fits parent bytes = true
          · have all : ledger.fits position bytes = true := by
              rw [fits, chain, List.all_cons, own, Bool.true_and]
              exact above
            rw [if_pos above, if_pos all, reserve, reserve, chain, List.foldl_cons]
            dsimp only
            rw [modify_foldl_charge apart, modify_hold own]
          · have short : ¬ ledger.fits position bytes = true := by
              rw [fits, chain, List.all_cons, own, Bool.true_and]
              exact above
            rw [if_neg above, if_neg short]
      · have short : ¬ ledger.fits position bytes = true := by
          rw [fits, chain, List.all_cons, Bool.and_eq_true, not_and_or]
          exact .inl own
        rw [if_neg own, if_neg short]

theorem reserve?_eq (ledger : Ledger) (position bytes : Nat) :
    ledger.reserve? position bytes =
      if ledger.fits position bytes then some (ledger.reserve position bytes) else none := by
  rw [reserve?, tryReserve_eq]
  by_cases fits : ledger.fits position bytes = true <;> simp [fits]

/-- A reservation that is refused leaves all accounts as they were. -/
theorem tryReserve_eq_reserve? (ledger : Ledger) (position bytes : Nat) :
    ledger.tryReserve position bytes =
      match ledger.reserve? position bytes with
      | some after => (true, after)
      | none => (false, ledger) := by
  rw [tryReserve_eq, reserve?_eq]
  by_cases fits : ledger.fits position bytes = true <;> simp [fits]

theorem eq_reserve_of_reserve?
    {ledger after : Ledger}
    {position bytes : Nat}
    (reserved : ledger.reserve? position bytes = some after) :
    after = ledger.reserve position bytes := by
  rw [reserve?_eq] at reserved
  split at reserved
  · exact (Option.some.inj reserved).symm
  · cases reserved

/-! ## New accounts -/

/-- A new account holds nothing, and the others are as they were. -/
theorem account_openAccount
    (ledger : Ledger)
    (label : String)
    (limit : Nat)
    (parent : Option Nat)
    (place : Nat) :
    (ledger.openAccount label limit parent).2.account place =
      if place = ledger.accounts.size then { label, limit, parent } else ledger.account place := by
  unfold account openAccount
  rw [Array.getElem?_push]
  split <;> rfl

theorem size_openAccount
    (ledger : Ledger)
    (label : String)
    (limit : Nat)
    (parent : Option Nat) :
    (ledger.openAccount label limit parent).2.accounts.size = ledger.accounts.size + 1 :=
  Array.size_push _

theorem used_eq_zero_of_size_le
    {ledger : Ledger}
    {place : Nat}
    (unknown : ledger.accounts.size ≤ place) :
    ledger.used place = 0 := by
  unfold used account
  rw [Array.getElem?_eq_none unknown]
  rfl

theorem peak_eq_zero_of_size_le
    {ledger : Ledger}
    {place : Nat}
    (unknown : ledger.accounts.size ≤ place) :
    ledger.peak place = 0 := by
  unfold peak account
  rw [Array.getElem?_eq_none unknown]
  rfl

@[simp] theorem used_openAccount
    (ledger : Ledger)
    (label : String)
    (limit : Nat)
    (parent : Option Nat)
    (place : Nat) :
    (ledger.openAccount label limit parent).2.used place = ledger.used place := by
  rw [used, account_openAccount]
  split
  case isTrue new => exact (used_eq_zero_of_size_le (Nat.le_of_eq new.symm)).symm
  case isFalse => rfl

@[simp] theorem peak_openAccount
    (ledger : Ledger)
    (label : String)
    (limit : Nat)
    (parent : Option Nat)
    (place : Nat) :
    (ledger.openAccount label limit parent).2.peak place = ledger.peak place := by
  rw [peak, account_openAccount]
  split
  case isTrue new => exact (peak_eq_zero_of_size_le (Nat.le_of_eq new.symm)).symm
  case isFalse => rfl

theorem chain_openAccount
    {ledger : Ledger}
    {position : Nat}
    (known : position < ledger.accounts.size)
    (label : String)
    (limit : Nat)
    (parent : Option Nat) :
    (ledger.openAccount label limit parent).2.chain position = ledger.chain position := by
  refine chain_congr fun place bounded => ?_
  rw [account_openAccount, if_neg (Nat.ne_of_lt (Nat.lt_of_le_of_lt bounded known))]

/-! ## Balances -/

/-- No account ever held the largest number of bytes that can be counted, so none of its charges was
cut short. -/
def Unfilled (ledger : Ledger) : Prop :=
  ∀ place, ledger.peak place < Account.capacity

theorem unfilled_iff (ledger : Ledger) :
    ledger.Unfilled ↔ ∀ place < ledger.accounts.size, ledger.peak place < Account.capacity := by
  refine ⟨fun unfilled place _ => unfilled place, fun below place => ?_⟩
  by_cases known : place < ledger.accounts.size
  · exact below place known
  · rw [peak_eq_zero_of_size_le (Nat.le_of_not_lt known)]
    decide

instance (ledger : Ledger) : Decidable ledger.Unfilled :=
  decidable_of_iff' _ ledger.unfilled_iff

/-- An account holds so many bytes, each of which is also charged to all accounts above it. Beside these
bytes the accounts hold what they hold for others, and that is nothing for the account itself. Once an
account was filled up nothing is said about the ledger but that the account holds no more bytes than
that. -/
structure Holds
    (ledger : Ledger)
    (account : Nat)
    (others : Nat → Nat)
    (bytes : Nat) : Prop where
  known : account < ledger.accounts.size
  within : ledger.used account ≤ bytes
  own : ledger.Unfilled → others account = 0
  used : ledger.Unfilled → ∀ place,
    ledger.used place = others place + if place ∈ ledger.chain account then bytes else 0

theorem unfilled_of_reserve
    {ledger : Ledger}
    {position bytes : Nat}
    (known : position < ledger.accounts.size)
    (unfilled : (ledger.reserve position bytes).Unfilled) :
    ledger.Unfilled := by
  intro place
  have after := unfilled place
  rw [peak, account_reserve known] at after
  split at after
  · exact Nat.lt_of_le_of_lt (Nat.le_max_left _ _) after
  · exact after

/-- A charge that fills no account is counted in full. -/
theorem used_reserve
    {ledger : Ledger}
    {position bytes : Nat}
    (known : position < ledger.accounts.size)
    (unfilled : (ledger.reserve position bytes).Unfilled)
    (place : Nat) :
    (ledger.reserve position bytes).used place =
      ledger.used place + if place ∈ ledger.chain position then bytes else 0 := by
  have after := unfilled place
  rw [peak, account_reserve known] at after
  rw [used, account_reserve known]
  split at after
  case isTrue member =>
      rw [if_pos member, if_pos member, Account.used_charge]
      rw [Account.peak_charge] at after
      unfold used
      omega
  case isFalse outside =>
      rw [if_neg outside, if_neg outside]
      rfl

/-- A release of no more than is held is not cut short anywhere. -/
theorem used_release
    {ledger : Ledger}
    {position bytes : Nat}
    (known : position < ledger.accounts.size)
    (held : ∀ place ∈ ledger.chain position, bytes ≤ ledger.used place)
    (place : Nat) :
    (ledger.release position bytes).used place +
      (if place ∈ ledger.chain position then bytes else 0) = ledger.used place := by
  rw [used, account_release known held]
  split
  case isTrue member => exact Nat.sub_add_cancel (held place member)
  case isFalse => rfl

theorem unfilled_release_iff {ledger : Ledger} {position bytes : Nat} :
    (ledger.release position bytes).Unfilled ↔ ledger.Unfilled := by
  unfold Unfilled
  simp only [peak_release]

variable {ledger : Ledger} {account position bytes more : Nat} {others : Nat → Nat}

theorem Holds.reserve
    (holds : ledger.Holds account others bytes)
    (more : Nat) :
    (ledger.reserve account more).Holds account others (bytes + more) where
  known := by
    rw [size_reserve]
    exact holds.known
  within := by
    rw [Ledger.used, account_reserve holds.known, if_pos (mem_chain_self ledger account)]
    exact Nat.le_trans (Nat.min_le_left _ _) (Nat.add_le_add_right holds.within more)
  own unfilled := holds.own (unfilled_of_reserve holds.known unfilled)
  used unfilled place := by
    rw [used_reserve holds.known unfilled, chain_reserve holds.known,
      holds.used (unfilled_of_reserve holds.known unfilled)]
    split <;> omega

/-- Whatever part of the bytes of an account is given back, all accounts that are to give it hold it. -/
theorem Holds.covers
    (holds : ledger.Holds account others bytes)
    (unfilled : ledger.Unfilled)
    (part : more ≤ bytes) :
    ∀ place ∈ ledger.chain account, more ≤ ledger.used place := by
  intro place member
  rw [holds.used unfilled, if_pos member]
  exact Nat.le_add_left_of_le part

theorem Holds.release
    (holds : ledger.Holds account others (bytes + more)) :
    (ledger.release account more).Holds account others bytes where
  known := by
    rw [size_release]
    exact holds.known
  within := by
    rw [used_release_self holds.known]
    exact Nat.sub_le_of_le_add holds.within
  own unfilled := holds.own (unfilled_release_iff.mp unfilled)
  used unfilled place := by
    have before := unfilled_release_iff.mp unfilled
    have after := used_release holds.known (holds.covers before (Nat.le_add_left more bytes)) place
    rw [holds.used before] at after
    rw [chain_release]
    by_cases member : place ∈ ledger.chain account
    · rw [if_pos member, if_pos member] at after
      rw [if_pos member]
      omega
    · rw [if_neg member, if_neg member] at after
      rw [if_neg member]
      exact after

theorem unfilled_openAccount_iff {label : String} {limit : Nat} {parent : Option Nat} :
    (ledger.openAccount label limit parent).2.Unfilled ↔ ledger.Unfilled := by
  unfold Unfilled
  simp only [peak_openAccount]

/-- A new account takes over from accounts that hold what they hold for others only. -/
theorem holds_openAccount
    (empty : ledger.Unfilled → bytes = 0)
    (balance : ledger.Unfilled → ∀ place, ledger.used place = others place)
    (label : String)
    (limit : Nat)
    (parent : Option Nat) :
    (ledger.openAccount label limit parent).2.Holds ledger.accounts.size others bytes where
  known := by simp [openAccount]
  within := by
    rw [used_openAccount, used_eq_zero_of_size_le (Nat.le_refl _)]
    exact Nat.zero_le bytes
  own unfilled := by
    rw [← balance (unfilled_openAccount_iff.mp unfilled), used_eq_zero_of_size_le (Nat.le_refl _)]
  used unfilled place := by
    rw [used_openAccount, empty (unfilled_openAccount_iff.mp unfilled),
      balance (unfilled_openAccount_iff.mp unfilled)]
    simp

/-- An account that holds nothing can be given up for a new one. -/
theorem Holds.reopen
    (holds : ledger.Holds account others bytes)
    (none : ledger.used account = 0)
    (label : String)
    (limit : Nat)
    (parent : Option Nat) :
    (ledger.openAccount label limit parent).2.Holds ledger.accounts.size others bytes := by
  have empty : ledger.Unfilled → bytes = 0 := by
    intro unfilled
    have balance := holds.used unfilled account
    rw [none, if_pos (mem_chain_self ledger account)] at balance
    omega
  refine holds_openAccount empty (fun unfilled place => ?_) label limit parent
  rw [holds.used unfilled, empty unfilled]
  simp

/-! ## What others do with their accounts -/

theorem Holds.openElsewhere
    (holds : ledger.Holds account others bytes)
    (label : String)
    (limit : Nat)
    (parent : Option Nat) :
    (ledger.openAccount label limit parent).2.Holds account others bytes where
  known := by
    rw [size_openAccount]
    exact Nat.lt_succ_of_lt holds.known
  within := by
    rw [used_openAccount]
    exact holds.within
  own unfilled := holds.own (unfilled_openAccount_iff.mp unfilled)
  used unfilled place := by
    rw [used_openAccount, chain_openAccount holds.known,
      holds.used (unfilled_openAccount_iff.mp unfilled)]

theorem Holds.reserveElsewhere
    (holds : ledger.Holds account others bytes)
    (known : position < ledger.accounts.size)
    (apart : account ∉ ledger.chain position)
    (more : Nat) :
    (ledger.reserve position more).Holds account
      (fun place => others place + if place ∈ ledger.chain position then more else 0) bytes where
  known := by
    rw [size_reserve]
    exact holds.known
  within := by
    rw [Ledger.used, account_reserve known, if_neg apart]
    exact holds.within
  own unfilled := by
    rw [if_neg apart, holds.own (unfilled_of_reserve known unfilled)]
  used unfilled place := by
    rw [used_reserve known unfilled, chain_reserve known,
      holds.used (unfilled_of_reserve known unfilled)]
    omega

theorem Holds.releaseElsewhere
    (holds : ledger.Holds account others bytes)
    (known : position < ledger.accounts.size)
    (apart : account ∉ ledger.chain position)
    (held : ∀ place ∈ ledger.chain position, more ≤ others place) :
    (ledger.release position more).Holds account
      (fun place => others place - if place ∈ ledger.chain position then more else 0) bytes where
  known := by
    rw [size_release]
    exact holds.known
  within := by
    rw [Ledger.used, Ledger.release, account_refundAlong_of_not_mem apart]
    exact holds.within
  own unfilled := by
    rw [if_neg apart, holds.own (unfilled_release_iff.mp unfilled)]
  used unfilled place := by
    have before := holds.used (unfilled_release_iff.mp unfilled)
    have covered : ∀ place ∈ ledger.chain position, more ≤ ledger.used place := by
      intro place member
      rw [before]
      exact Nat.le_add_right_of_le (held place member)
    have after := used_release known covered place
    rw [before place] at after
    rw [chain_release]
    by_cases member : place ∈ ledger.chain position
    · have enough := held place member
      rw [if_pos member] at after ⊢
      omega
    · rw [if_neg member] at after ⊢
      omega

/-- What happens to the ledger, and to what it holds for others than the owner of an account, when they
open accounts, charge theirs or give back what they hold. None of their accounts belongs to the owner's,
so the owner's is not above any of them. -/
inductive Elsewhere
    (account : Nat) :
    Ledger → (Nat → Nat) → Ledger → (Nat → Nat) → Prop where
  | opens {ledger : Ledger} {others : Nat → Nat}
      (label : String)
      (limit : Nat)
      (parent : Option Nat) :
      Elsewhere account ledger others (ledger.openAccount label limit parent).2 others
  | reserves {ledger : Ledger} {others : Nat → Nat} {position : Nat}
      (known : position < ledger.accounts.size)
      (apart : account ∉ ledger.chain position)
      (more : Nat) :
      Elsewhere account ledger others (ledger.reserve position more)
        fun place => others place + if place ∈ ledger.chain position then more else 0
  | releases {ledger : Ledger} {others : Nat → Nat} {position more : Nat}
      (known : position < ledger.accounts.size)
      (apart : account ∉ ledger.chain position)
      (held : ∀ place ∈ ledger.chain position, more ≤ others place) :
      Elsewhere account ledger others (ledger.release position more)
        fun place => others place - if place ∈ ledger.chain position then more else 0

/-- Whatever others do, an account holds what it held. -/
theorem Holds.elsewhere
    {next : Ledger}
    {nextOthers : Nat → Nat}
    (holds : ledger.Holds account others bytes)
    (elsewhere : Elsewhere account ledger others next nextOthers) :
    next.Holds account nextOthers bytes := by
  cases elsewhere with
  | opens label limit parent => exact holds.openElsewhere label limit parent
  | reserves known apart more => exact holds.reserveElsewhere known apart more
  | releases known apart held => exact holds.releaseElsewhere known apart held

/-- Others open accounts, and close none. -/
theorem Elsewhere.size_le
    {next : Ledger}
    {nextOthers : Nat → Nat}
    (elsewhere : Elsewhere account ledger others next nextOthers) :
    ledger.accounts.size ≤ next.accounts.size := by
  cases elsewhere with
  | opens => simp [openAccount]
  | reserves => exact Nat.le_of_eq (size_reserve _ _ _).symm
  | releases => exact Nat.le_of_eq (size_release _ _ _).symm

/-- Others leave an account as it is. -/
theorem Elsewhere.account_eq
    {next : Ledger}
    {nextOthers : Nat → Nat}
    (elsewhere : Elsewhere account ledger others next nextOthers)
    (known : account < ledger.accounts.size) :
    next.account account = ledger.account account := by
  cases elsewhere with
  | opens label limit parent => rw [account_openAccount, if_neg (Nat.ne_of_lt known)]
  | reserves there apart more => rw [account_reserve there, if_neg apart]
  | releases there apart held => exact account_refundAlong_of_not_mem apart _ _

/-! ## Laws of one account -/

/-- A law on an account and so many bytes that lasts when more bytes that fit are charged, and when some are
given back. -/
class Lasting (law : Ledger → Nat → Nat → Prop) : Prop where
  reserve? : ∀ {ledger next : Ledger} {account bytes more : Nat},
    law ledger account bytes → ledger.reserve? account more = some next → law next account (bytes + more)
  release : ∀ {ledger : Ledger} {account bytes more : Nat},
    law ledger account (bytes + more) → law (ledger.release account more) account bytes

instance (others : Nat → Nat) :
    Lasting fun ledger account bytes => ledger.Holds account others bytes where
  reserve? holds fits := eq_reserve_of_reserve? fits ▸ holds.reserve _
  release holds := holds.release

/-- The account is charged for so many bytes at least. -/
structure Backs (ledger : Ledger) (account bytes : Nat) : Prop where
  known : account < ledger.accounts.size
  backed : bytes ≤ ledger.used account

/-- A charge that fits the account is counted in full. -/
theorem Backs.reserve?
    {next : Ledger}
    (backs : ledger.Backs account bytes)
    (fits : ledger.reserve? account more = some next) :
    next.Backs account (bytes + more) := by
  have room : ledger.used account + more ≤ Account.capacity := by
    rw [reserve?_eq] at fits
    split at fits
    case isTrue chain =>
        have own := List.all_eq_true.mp chain account (mem_chain_self ledger account)
        simp only [Account.fits, Bool.and_eq_true, decide_eq_true_eq] at own
        exact own.1
    case isFalse => cases fits
  have backed := backs.backed
  rw [eq_reserve_of_reserve? fits]
  refine ⟨by rw [size_reserve]; exact backs.known, ?_⟩
  rw [used, account_reserve backs.known, if_pos (mem_chain_self ledger account), Account.used_charge]
  unfold used at room backed
  omega

instance : Lasting Backs where
  reserve? backs fits := backs.reserve? fits
  release {ledger account bytes more} backs :=
    { known := by
        rw [size_release]
        exact backs.known
      backed := by
        rw [used_release_self backs.known]
        exact Nat.le_sub_of_add_le backs.backed }

theorem backs_openAccount
    (ledger : Ledger)
    (label : String)
    (limit : Nat)
    (parent : Option Nat) :
    (ledger.openAccount label limit parent).2.Backs ledger.accounts.size 0 :=
  ⟨by simp [openAccount], Nat.zero_le _⟩

theorem Backs.elsewhere
    {next : Ledger}
    {nextOthers : Nat → Nat}
    (backs : ledger.Backs account bytes)
    (elsewhere : Elsewhere account ledger others next nextOthers) :
    next.Backs account bytes where
  known := Nat.lt_of_lt_of_le backs.known elsewhere.size_le
  backed := by
    rw [used, elsewhere.account_eq backs.known]
    exact backs.backed

end Ledger
end Spillway
