import Mathlib.Logic.Relation
import Spillway.Proofs.Operator.WorkList

/-!
# Work on a stack

The partitions of a work list can be kept on one stack: as long as there are any, the one on top is taken
off and visited, and the partitions that it is split into are put on top. Nothing bounds the turns that
are taken. They end nevertheless if a partition can be split a limited number of times, and where they end
is where the work list ends.
-/

namespace Spillway

open Relation

/-- The partitions that are to be visited, the next one on top, and the state. -/
structure WorkStack (σ : Type) where
  stack : List Nat
  state : σ

variable {σ α : Type} {visit : Nat → Step σ (Visit α)} {start config last : WorkStack σ}

/-- The partition on top of the stack is visited, and what it is split into is put on top. -/
inductive Turn (visit : Nat → Step σ (Visit α)) : WorkStack σ → WorkStack σ → Prop where
  | visit
      {partition : Nat}
      {rest : List Nat}
      {before after : σ}
      {result : Visit α}
      (succeeds : (visit partition).Succeeds before result after) :
      Turn visit ⟨partition :: rest, before⟩ ⟨result.left ++ rest, after⟩

/-- Turns are taken one after the other. -/
def Turns (visit : Nat → Step σ (Visit α)) : WorkStack σ → WorkStack σ → Prop :=
  ReflTransGen (Turn visit)

/-- No more turns are taken: nothing is left on the stack, or the visit of what is on top fails. -/
def Ended
    (visit : Nat → Step σ (Visit α))
    (last : WorkStack σ) : Prop :=
  ∀ next, ¬ Turn visit last next

theorem Turn.unique
    {next other : WorkStack σ}
    (one : Turn visit config next)
    (another : Turn visit config other) :
    next = other := by
  cases one with
  | visit succeeds =>
      cases another with
      | visit again =>
          obtain ⟨⟨rfl⟩, rfl⟩ := Prod.mk.inj (succeeds.symm.trans again)
          rfl

theorem ended_nil (state : σ) : Ended visit ⟨[], state⟩ :=
  fun _ turn => nomatch turn

theorem ended_of_error
    {partition : Nat}
    {rest : List Nat}
    {before after : σ}
    {status : Status}
    (fails : (visit partition).outcome before = (.error status, after)) :
    Ended visit ⟨partition :: rest, before⟩ := by
  intro next turn
  cases turn with
  | visit succeeds => exact absurd (fails.symm.trans succeeds) (by simp)

/-- Whatever is reached on the way comes before the end. -/
theorem Turns.to_end
    (reached : Turns visit start config)
    (ends : Turns visit start last)
    (ended : Ended visit last) :
    Turns visit config last := by
  have unique : Relator.RightUnique (Turn visit) := fun _ _ _ => Turn.unique
  obtain goesOn | back := ReflTransGen.total_of_right_unique unique reached ends
  · exact goesOn
  · obtain same | ⟨next, turn, _⟩ := ReflTransGen.cases_head back
    · exact same ▸ .refl
    · exact absurd turn (ended next)

/-- There is one end at most. -/
theorem Ended.unique
    {other : WorkStack σ}
    (ended : Ended visit last)
    (endedOther : Ended visit other)
    (turns : Turns visit start last)
    (turnsOther : Turns visit start other) :
    last = other := by
  obtain same | ⟨next, turn, _⟩ := ReflTransGen.cases_head (turns.to_end turnsOther endedOther)
  · exact same
  · exact absurd turn (ended next)

/-- Turns are taken until a visit fails. -/
def Fails
    (visit : Nat → Step σ (Visit α))
    (start : WorkStack σ)
    (status : Status)
    (after : σ) : Prop :=
  ∃ partition rest before, Turns visit start ⟨partition :: rest, before⟩ ∧
    (visit partition).outcome before = (.error status, after)

theorem Turns.fails
    {status : Status}
    {after : σ}
    (turns : Turns visit start config)
    (fails : Fails visit config status after) :
    Fails visit start status after :=
  let ⟨partition, rest, before, more, failed⟩ := fails
  ⟨partition, rest, before, turns.trans more, failed⟩

/-- What every visit that is met leaves in place is in place after any number of turns. -/
theorem Turns.of_visits
    {Invariant : σ → Prop}
    (visits : ∀ (partition : Nat) (before : σ), Invariant before →
      (visit partition).Ends before (fun _ => Invariant) fun _ _ => True)
    (turns : Turns visit start config)
    (invariant : Invariant start.state) :
    Invariant config.state := by
  induction turns with
  | refl => exact invariant
  | tail _ turn inductionHypothesis =>
      cases turn with
      | visit succeeds => exact (visits _ _ inductionHypothesis).of_succeeds succeeds

/-! ## The work list -/

variable {room : σ → Nat → Nat → Prop}

/-- No partition loses any room for splits. -/
def Roomy
    (room : σ → Nat → Nat → Prop)
    (before after : σ) : Prop :=
  ∀ partition depth, room before partition depth → room after partition depth

/-- A partition that is split has room for one split more than the partitions that come of it, and no
partition loses any. -/
def Deepens
    (room : σ → Nat → Nat → Prop)
    (visit : Nat → Step σ (Visit α)) : Prop :=
  ∀ {partition depth : Nat} {before after : σ} {result : Visit α},
    (visit partition).Succeeds before result after →
    room before partition depth →
    Roomy room before after ∧
      ∀ children, result = .split children →
        ∃ less, depth = less + 1 ∧ ∀ child ∈ children, room after child less

/-- The work list takes the turns that take its partitions off the stack, and fails where a visit
fails. -/
def TakesTurns
    (visit : Nat → Step σ (Visit α))
    (room : σ → Nat → Nat → Prop)
    (depth : Nat)
    (step : List Nat → Step σ (List α)) : Prop :=
  ∀ (work : List Nat) (before : σ), (∀ partition ∈ work, room before partition depth) →
    (step work).Ends before
      (fun _ after => Roomy room before after ∧
        ∀ rest, Turns visit ⟨work ++ rest, before⟩ ⟨rest, after⟩)
      fun status after => ∀ rest, Fails visit ⟨work ++ rest, before⟩ status after

theorem takesTurns_drainWith
    {deeper : List Nat → Step σ (List α)}
    {depth : Nat}
    (deepens : Deepens room visit)
    (takes : ∀ less, depth = less + 1 → TakesTurns visit room less deeper) :
    TakesTurns visit room depth (drainWith visit deeper) := by
  intro work before roomy
  induction work generalizing before with
  | nil => exact ⟨fun _ _ => id, fun _ => .refl⟩
  | cons partition work inductionHypothesis =>
      rw [List.forall_mem_cons] at roomy
      rw [drainWith, Step.ends_bind]
      refine (Step.ends_outcome _ before).mono (fun result between succeeds => ?_)
        fun status after failed rest => ⟨partition, work ++ rest, before, .refl, failed⟩
      obtain ⟨keeps, splits⟩ := deepens succeeds roomy.1
      have turn : ∀ rest, Turns visit ⟨partition :: work ++ rest, before⟩
          ⟨result.left ++ (work ++ rest), between⟩ := fun rest => .single (.visit succeeds)
      have follows : (result.follow deeper).Ends between
          (fun _ after => Roomy room before after ∧
            ∀ rest, Turns visit ⟨partition :: work ++ rest, before⟩ ⟨work ++ rest, after⟩)
          fun status after => ∀ rest, Fails visit ⟨partition :: work ++ rest, before⟩ status after := by
        cases result with
        | done output => exact ⟨keeps, turn⟩
        | split children =>
            obtain ⟨less, same, room⟩ := splits children rfl
            refine (takes less same children between room).mono (fun _ after deeper => ?_)
              fun _ _ fails rest => (turn rest).fails (fails _)
            exact ⟨fun other more had => deeper.1 other more (keeps other more had),
              fun rest => (turn rest).trans (deeper.2 _)⟩
      rw [Step.ends_bind]
      refine follows.mono (fun output middle visited => ?_) fun _ _ => id
      obtain ⟨still, turns⟩ := visited
      rw [Step.ends_bind]
      refine (inductionHypothesis middle fun other member => still other _ (roomy.2 other member)).mono
        (fun _ after drained => ?_) fun _ _ fails rest => (turns rest).fails (fails rest)
      exact ⟨fun other more had => drained.1 other more (still other more had),
        fun rest => (turns rest).trans (drained.2 rest)⟩

/-- The turns end where the work list ends, as long as there is room for the splits. -/
theorem takesTurns_drain
    (deepens : Deepens room visit)
    (depth : Nat) :
    TakesTurns visit room depth (drain visit depth) := by
  induction depth with
  | zero => exact takesTurns_drainWith deepens fun _ same => absurd same (by simp)
  | succ depth inductionHypothesis =>
      refine takesTurns_drainWith deepens fun less same => ?_
      rw [Nat.succ_inj] at same
      exact same ▸ inductionHypothesis

/-! ## Work lists in general -/

/-- Turns are taken until nothing more is done, or until a visit fails. -/
def Halts
    (visit : Nat → Step σ (Visit α))
    (start : WorkStack σ)
    (after : σ) : Prop :=
  (∃ config, Turns visit start config ∧ config.state = after) ∨
    ∃ status, Fails visit start status after

theorem Turns.halts
    {after : σ}
    (turns : Turns visit start config)
    (halts : Halts visit config after) :
    Halts visit start after := by
  obtain ⟨last, more, same⟩ | ⟨status, fails⟩ := halts
  · exact .inl ⟨last, turns.trans more, same⟩
  · exact .inr ⟨status, turns.fails fails⟩

/-- The work list takes the turns that take its partitions off the stack, and wherever it fails turns lead
there. -/
def WorkStack.Follows
    (visit : Nat → Step σ (Visit α))
    (step : List Nat → Step σ (List α)) : Prop :=
  ∀ (work : List Nat) (before : σ), (step work).Ends before
    (fun _ after => ∀ rest, Turns visit ⟨work ++ rest, before⟩ ⟨rest, after⟩)
    fun _ after => ∀ rest, Halts visit ⟨work ++ rest, before⟩ after

theorem follows_drainWith_turns
    {deeper : List Nat → Step σ (List α)}
    (follows : WorkStack.Follows visit deeper) :
    WorkStack.Follows visit (drainWith visit deeper) := by
  intro work before
  induction work generalizing before with
  | nil => exact fun _ => .refl
  | cons partition work inductionHypothesis =>
      rw [drainWith, Step.ends_bind]
      refine (Step.ends_outcome _ before).mono (fun result between succeeds => ?_)
        fun status after failed rest => .inr ⟨status, partition, work ++ rest, before, .refl, failed⟩
      have turn : ∀ rest, Turns visit ⟨partition :: work ++ rest, before⟩
          ⟨result.left ++ (work ++ rest), between⟩ := fun rest => .single (.visit succeeds)
      have visited : (result.follow deeper).Ends between
          (fun _ after => ∀ rest, Turns visit ⟨partition :: work ++ rest, before⟩ ⟨work ++ rest, after⟩)
          fun _ after => ∀ rest, Halts visit ⟨partition :: work ++ rest, before⟩ after := by
        cases result with
        | done output => exact turn
        | split children =>
            exact (follows children between).mono (fun _ _ deeper rest => (turn rest).trans (deeper _))
              fun _ _ halts rest => (turn rest).halts (halts _)
      rw [Step.ends_bind]
      refine visited.mono (fun output middle turns => ?_) fun _ _ => id
      rw [Step.ends_bind]
      exact (inductionHypothesis middle).mono (fun _ _ drained rest => (turns rest).trans (drained rest))
        fun _ _ halts rest => (turns rest).halts (halts rest)

/-- However deep the splits go, a work list goes where turns lead. -/
theorem follows_drain_turns
    (visit : Nat → Step σ (Visit α))
    (depth : Nat) :
    WorkStack.Follows visit (drain visit depth) := by
  induction depth with
  | zero =>
      exact follows_drainWith_turns fun work before rest => .inl ⟨⟨work ++ rest, before⟩, .refl, rfl⟩
  | succ depth inductionHypothesis => exact follows_drainWith_turns inductionHypothesis

end Spillway
