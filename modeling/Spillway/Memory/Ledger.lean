/-!
# Memory ledger

Memory is accounted for in a tree of accounts, each with a limit. A reservation on an account is asked
of one account after the other on the way up, and charged to them on the way down, once the last one has
granted it; a forced reservation is charged whether it fits or not; a release gives back at most what is
held, and each account above gives back what the account below it gave. Amounts are counted in bytes up
to the largest 64-bit number.
-/

namespace Spillway

/-- One account: its limit, what it holds and the most it ever held. -/
structure Account where
  label : String
  limit : Nat
  parent : Option Nat := none
  used : Nat := 0
  peak : Nat := 0
  deriving DecidableEq, Repr

namespace Account

/-- Largest amount that an account can hold. -/
def capacity : Nat := UInt64.size - 1

/-- Whether so many more bytes can be counted and stay within the limit. -/
def fits (account : Account) (bytes : Nat) : Bool :=
  account.used + bytes ≤ capacity && account.used + bytes ≤ account.limit

/-- Holds so many bytes from now on. -/
def hold (account : Account) (used : Nat) : Account :=
  { account with used, peak := max account.peak used }

/-- Holds so many more bytes, as far as they can be counted. -/
def charge (account : Account) (bytes : Nat) : Account :=
  account.hold (min (account.used + bytes) capacity)

/-- Gives back so many bytes, or all that is held. -/
def refund (account : Account) (bytes : Nat) : Account :=
  { account with used := account.used - bytes }

/-- What may still be reserved. -/
def available (account : Account) : Nat :=
  account.limit - account.used

end Account

/-- A tree of accounts, named by their positions. An account comes after the one it belongs to. -/
structure Ledger where
  accounts : Array Account := #[]
  deriving DecidableEq, Repr

namespace Ledger

/-- The account at a position. A position without an account counts as one without a limit. -/
def account (ledger : Ledger) (position : Nat) : Account :=
  ledger.accounts[position]?.getD { label := "", limit := Account.capacity }

/-- Opens an account and returns its position. -/
def openAccount
    (ledger : Ledger)
    (label : String)
    (limit : Nat)
    (parent : Option Nat := none) :
    Nat × Ledger :=
  (ledger.accounts.size, { accounts := ledger.accounts.push { label, limit, parent } })

/-- Position of the account that an account belongs to. -/
def parent? (ledger : Ledger) (position : Nat) : Option Nat :=
  match (ledger.account position).parent with
  | some parent => if parent < position then some parent else none
  | none => none

theorem lt_of_parent? {ledger : Ledger} {position parent : Nat}
    (found : ledger.parent? position = some parent) : parent < position := by
  unfold parent? at found
  grind

/-- An account and all accounts above it, nearest first. -/
def chain (ledger : Ledger) (position : Nat) : List Nat :=
  match _found : ledger.parent? position with
  | none => [position]
  | some parent => position :: ledger.chain parent
termination_by position
decreasing_by exact lt_of_parent? _found

/-- Changes one account. -/
def modify (ledger : Ledger) (position : Nat) (change : Account → Account) : Ledger :=
  { accounts := ledger.accounts.modify position change }

/-- Charges an account and all accounts above it. -/
def reserve (ledger : Ledger) (position bytes : Nat) : Ledger :=
  (ledger.chain position).foldl (fun ledger place => ledger.modify place (·.charge bytes)) ledger

/-- Asks an account to hold so many more bytes, and says whether it does. An account for which they fit
asks the account that it belongs to, and holds them itself once that one does. -/
def tryReserve (ledger : Ledger) (position bytes : Nat) : Bool × Ledger :=
  let account := ledger.account position
  if account.fits bytes then
    let next := account.used + bytes
    match _found : ledger.parent? position with
    | none => (true, ledger.modify position (·.hold next))
    | some parent =>
      match ledger.tryReserve parent bytes with
      | (true, after) => (true, after.modify position (·.hold next))
      | (false, after) => (false, after)
  else (false, ledger)
termination_by position
decreasing_by exact lt_of_parent? _found

/-- The ledger after a reservation that was granted. -/
def reserve? (ledger : Ledger) (position bytes : Nat) : Option Ledger :=
  match ledger.tryReserve position bytes with
  | (true, after) => some after
  | (false, _) => none

/-- Gives bytes back along a chain of accounts: each gives what the one below it gave. -/
def refundAlong (ledger : Ledger) (bytes : Nat) : List Nat → Ledger
  | [] => ledger
  | place :: above =>
    let given := min bytes (ledger.account place).used
    (ledger.modify place (·.refund given)).refundAlong given above

/-- Gives bytes back to an account and all accounts above it. -/
def release (ledger : Ledger) (position bytes : Nat) : Ledger :=
  ledger.refundAlong bytes (ledger.chain position)

/-- What an account holds. -/
def used (ledger : Ledger) (position : Nat) : Nat :=
  (ledger.account position).used

/-- The most an account ever held. -/
def peak (ledger : Ledger) (position : Nat) : Nat :=
  (ledger.account position).peak

/-- What the limit of an account still allows, whatever the accounts above it hold. -/
def available (ledger : Ledger) (position : Nat) : Nat :=
  (ledger.account position).available

@[simp] theorem size_modify (ledger : Ledger) (position : Nat) (change : Account → Account) :
    (ledger.modify position change).accounts.size = ledger.accounts.size := by
  simp [modify]

end Ledger

end Spillway
