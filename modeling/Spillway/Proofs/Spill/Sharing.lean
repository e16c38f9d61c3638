import Mathlib.Data.List.Nodup
import Mathlib.Logic.Function.Basic
import Spillway.Proofs.Spill.Effects

/-!
# Spillers that share a store

Any number of spillers write to one store and draw their paths from one counter, each with settings and
counters of its own, while others in the process draw paths too and write blocks under names of their
own choosing. Whichever calls come in whatever order, and whichever of them the store fails, no two
blocks that were handed out and not released share a path. Each of them is restored, by any of the
spillers, to the chunks of its schema that it was written for, under every declaration with the same
fields and the same hash, and under no other one. A call that could not write its block leaves the blocks
and its spiller as they were.
-/

namespace Spillway

open Step

/-- Spillers, by number, and the store that they share. -/
structure Sharing where
  spillers : Nat → Spiller
  store : Store

namespace Sharing

/-- What a call of one of the spillers works on. -/
def area
    (sharing : Sharing)
    (number : Nat) : SpillArea :=
  ⟨sharing.spillers number, sharing.store⟩

/-- Spillers and store after a call of one of the spillers. -/
def leave
    (number : Nat)
    (sharing : Sharing)
    (area : SpillArea) : Sharing :=
  ⟨Function.update sharing.spillers number area.spiller, area.store⟩

/-- A call of one of the spillers. -/
def byOne
    {α : Type}
    (number : Nat)
    (call : Step SpillArea α) : Step Sharing α :=
  call.focus (area · number) (leave number)

/-- A call of the store by others. -/
def byOthers
    {α : Type}
    (call : Step Store α) : Step Sharing α :=
  call.focus Sharing.store fun sharing store => { sharing with store }

/-- A block that was handed out, with the declaration and the chunks that it was written for. -/
structure Handed where
  block : Block
  declaration : Declaration
  chunks : List Chunk

/-- Where the block is. -/
def Handed.path (handed : Handed) : String :=
  handed.block.path

/-- All chunks have the schema that the block was written for. -/
def Handed.Fits (handed : Handed) : Prop :=
  ∀ chunk ∈ handed.chunks, chunk.schema = handed.declaration.schema

/-- The block can be read as it was declared: under the same fields, and with the same hash. -/
def Handed.ReadableAs
    (handed : Handed)
    (asked : Declaration) : Prop :=
  handed.declaration.same asked = true ∧ handed.declaration.hash = asked.hash

/-- Calls of the spillers and of others in any order, with the blocks that were handed out and not
released. Any block can be restored under any declaration, and a block that was handed out is released once
at most, by any of the spillers. -/
inductive Run (start : Sharing) : List Handed → Sharing → Prop
  | start : Run start [] start
  | spilled
    {live : List Handed}
    {before after : Sharing}
    {number : Nat}
    {declaration : Declaration}
    {chunks : List Chunk}
    {block : Block}
    (run : Run start live before)
    (spills : (byOne number (SpillArea.spill declaration chunks)).Succeeds before block after) :
    Run start (⟨block, declaration, chunks⟩ :: live) after
  | refused
    {live : List Handed}
    {before after : Sharing}
    {number : Nat}
    {declaration : Declaration}
    {chunks : List Chunk}
    {status : Status}
    (run : Run start live before)
    (fails : (byOne number (SpillArea.spill declaration chunks)).outcome before = (.error status, after)) :
    Run start live after
  | restored
    {live : List Handed}
    {before : Sharing}
    (run : Run start live before)
    (number : Nat)
    (declaration : Declaration)
    (block : Block) :
    Run start live ((byOne number (SpillArea.restore declaration block)).outcome before).2
  | released
    {front back : List Handed}
    {handed : Handed}
    {before : Sharing}
    (run : Run start (front ++ handed :: back) before)
    (number : Nat) :
    Run start (front ++ back) ((byOne number (SpillArea.release handed.block)).outcome before).2
  | created
    {live : List Handed}
    {before : Sharing}
    (run : Run start live before)
    (path : String)
    (bytes : List UInt8) :
    Run start live ((byOthers (Store.create path bytes)).outcome before).2
  | drawn
    {live : List Handed}
    {before : Sharing}
    (run : Run start live before) :
    Run start live ((byOthers Store.drawPath).outcome before).2

/-! ## What the store holds -/

/-- The store does no damage, and the blocks are there as they were written, each at a path of its
own. -/
structure Holds
    (live : List Handed)
    (sharing : Sharing) : Prop where
  faithful : sharing.store.damage = []
  distinct : (live.map Handed.path).Nodup
  written : ∀ handed ∈ live, ∃ compression, sharing.store.block? handed.path =
    some (SpillArea.bytesOf sharing.store.format compression handed.declaration handed.chunks)

variable {live front back : List Handed} {handed : Handed} {before after : Sharing}

theorem succeeds_byOne_iff
    {α : Type}
    {number : Nat}
    {call : Step SpillArea α}
    {value : α} :
    (byOne number call).Succeeds before value after ↔
      ∃ area, call.Succeeds (before.area number) value area ∧ leave number before area = after :=
  succeeds_focus ..

theorem ends_byOne
    {α : Type}
    {number : Nat}
    {call : Step SpillArea α}
    {ok : α → Sharing → Prop}
    {failed : Status → Sharing → Prop} :
    (byOne number call).Ends before ok failed ↔
      call.Ends (before.area number) (fun value area => ok value (leave number before area))
        fun status area => failed status (leave number before area) :=
  ends_focus ..

theorem Holds.of_keeps
    (holds : Holds live before)
    (keeps : before.store.Keeps after.store []) :
    Holds live after where
  faithful := keeps.damage.trans holds.faithful
  distinct := holds.distinct
  written handed member := by
    obtain ⟨compression, held⟩ := holds.written handed member
    rw [keeps.format]
    exact ⟨compression, keeps.block _ _ List.not_mem_nil held⟩

/-- A block that is written takes a path that no other one has. -/
theorem Holds.spilled
    {number : Nat}
    {declaration : Declaration}
    {chunks : List Chunk}
    {block : Block}
    (holds : Holds live before)
    (spills : (byOne number (SpillArea.spill declaration chunks)).Succeeds before block after) :
    Holds (⟨block, declaration, chunks⟩ :: live) after := by
  obtain ⟨area, written, rfl⟩ := succeeds_byOne_iff.mp spills
  have writes := SpillArea.writes_of_succeeds_spill written
  have kept : Holds live (leave number before area) := holds.of_keeps writes.keeps
  refine ⟨kept.faithful, ?_, fun handed member => ?_⟩
  · rw [List.map_cons, List.nodup_cons]
    refine ⟨fun taken => ?_, holds.distinct⟩
    obtain ⟨handed, member, same⟩ := List.mem_map.mp taken
    obtain ⟨_, held⟩ := holds.written handed member
    rw [same] at held
    exact Option.some_ne_none _ (held.symm.trans writes.free)
  · obtain rfl | member := List.mem_cons.mp member
    · exact ⟨_, writes.keeps.format ▸ writes.stored⟩
    · exact kept.written handed member

/-- A call that writes no block leaves the blocks and the spillers as they are. -/
theorem unchanged_of_refused
    {number : Nat}
    {declaration : Declaration}
    {chunks : List Chunk}
    {status : Status}
    (fails : (byOne number (SpillArea.spill declaration chunks)).outcome before = (.error status, after)) :
    before.store.Same after.store ∧ after.spillers = before.spillers := by
  have ends : (byOne number (SpillArea.spill declaration chunks)).Ends before (fun _ _ => True)
      fun _ after => before.store.Same after.store ∧ after.spillers = before.spillers := by
    rw [ends_byOne]
    refine (SpillArea.ends_spill declaration chunks (before.area number)).mono (fun _ _ _ => trivial)
      fun _ area unwritten => ⟨unwritten.1, ?_⟩
    rw [leave, unwritten.2]
    exact Function.update_eq_self number before.spillers
  exact ends.of_fails fails

theorem Holds.restored
    (holds : Holds live before)
    (number : Nat)
    (declaration : Declaration)
    (block : Block) :
    Holds live ((byOne number (SpillArea.restore declaration block)).outcome before).2 := by
  have ends : (byOne number (SpillArea.restore declaration block)).Ends before
      (fun _ => Holds live) (fun _ => Holds live) := by
    rw [ends_byOne]
    exact (SpillArea.ends_restore declaration block (before.area number)).mono
      (fun _ _ same => holds.of_keeps same.keeps) fun _ _ failed => holds.of_keeps failed.1.keeps
  exact ends.state

/-- Whether the store deletes a block that is released or not, it keeps those of all other paths. -/
theorem Holds.released
    (holds : Holds (front ++ handed :: back) before)
    (number : Nat) :
    Holds (front ++ back) ((byOne number (SpillArea.release handed.block)).outcome before).2 := by
  have keeps := SpillArea.keeps_release handed.block (before.area number)
  have apart := holds.distinct
  rw [List.map_append, List.map_cons, List.nodup_middle, List.nodup_cons, ← List.map_append] at apart
  refine ⟨keeps.damage.trans holds.faithful, apart.2, fun other member => ?_⟩
  have live : other ∈ front ++ handed :: back := by
    rw [List.mem_append, List.mem_cons] at *
    tauto
  obtain ⟨compression, held⟩ := holds.written other live
  have format : ((byOne number (SpillArea.release handed.block)).outcome before).2.store.format =
      before.store.format := keeps.format
  rw [format]
  refine ⟨compression, keeps.block _ _ (fun same => apart.1 ?_) held⟩
  have same : other.path = handed.path := List.mem_singleton.mp same
  rw [← same]
  exact List.mem_map_of_mem member

/-- The blocks that were handed out and not released are there after every run. -/
theorem Run.holds
    {start sharing : Sharing}
    (run : Run start live sharing)
    (faithful : start.store.damage = []) :
    Holds live sharing := by
  induction run with
  | start => exact ⟨faithful, List.nodup_nil, fun _ member => absurd member List.not_mem_nil⟩
  | spilled _ spills inductionHypothesis => exact inductionHypothesis.spilled spills
  | refused _ fails inductionHypothesis =>
      exact inductionHypothesis.of_keeps (unchanged_of_refused fails).1.keeps
  | restored _ number declaration block inductionHypothesis =>
      exact inductionHypothesis.restored number declaration block
  | released _ number inductionHypothesis => exact inductionHypothesis.released number
  | created _ path bytes inductionHypothesis =>
      exact inductionHypothesis.of_keeps (Store.keeps_create path bytes _)
  | @drawn _ before _ inductionHypothesis =>
      exact inductionHypothesis.of_keeps (Store.ends_drawPath before.store).1.keeps

/-! ## What is restored -/

/-- Reading a block that was handed out succeeds while the store can be read. -/
theorem Holds.exists_restores
    {asked : Declaration}
    (holds : Holds live before)
    (member : handed ∈ live)
    (fits : handed.Fits)
    (readable : before.store.outage.reads = false)
    (agrees : handed.ReadableAs asked)
    (number : Nat) :
    ∃ after, (byOne number (SpillArea.restore asked handed.block)).Succeeds before
      (handed.chunks.filter (!·.isEmpty)) after := by
  obtain ⟨_, held⟩ := holds.written handed member
  have read := Store.chunksAt?_of_block? holds.faithful held
    (SpillArea.decodeBlock_bytesOf handed.path (Body.readsBack_of_fitting fits) agrees.1 agrees.2)
  have restores : ∃ area, (SpillArea.restore asked handed.block).Succeeds
      (before.area number) (handed.chunks.filter (!·.isEmpty)) area :=
    SpillArea.exists_succeeds_restore readable read
  exact restores.elim fun area restored => ⟨_, succeeds_byOne_iff.mpr ⟨area, restored, rfl⟩⟩

/-- Reading a block under a declaration with other fields or another hash than it was written for is a
failure of the storage. -/
theorem Holds.restore_fails
    {asked : Declaration}
    (holds : Holds live before)
    (member : handed ∈ live)
    (different : ¬ handed.ReadableAs asked)
    (number : Nat) :
    (byOne number (SpillArea.restore asked handed.block)).Ends before (fun _ _ => False)
      fun status _ => status.code = .storage := by
  rw [ends_byOne]
  refine (SpillArea.ends_restore asked handed.block _).and_succeeds.mono (fun chunks _ restores => ?_)
    fun _ _ failed => failed.2
  obtain ⟨_, held⟩ := holds.written handed member
  have unread := Store.chunksAt?_eq_none holds.faithful held fun chunks decoded => by
    cases same : handed.declaration.same asked with
    | false => exact SpillArea.decodeBlock_bytesOf_of_not_same same decoded
    | true =>
        exact SpillArea.decodeBlock_bytesOf_of_hash_ne (fun hash => different ⟨same, hash⟩) decoded
  exact Option.some_ne_none _ ((SpillArea.succeeds_restore restores.1).2.symm.trans unread)

/-- What is true of the blocks that were handed out and not released, and of calls to write others: the
blocks do not share paths, while the store can be read every spiller restores each of them as it was
written, under every declaration with the same fields and the same hash, none of them is restored under
other fields, even where the hashes are the same, or under another hash, and a call that fails changes no
block and no spiller. -/
structure Isolated
    (live : List Handed)
    (sharing : Sharing) : Prop where
  distinct : live.Pairwise fun one other => one.path ≠ other.path
  restores : ∀ handed ∈ live, handed.Fits → sharing.store.outage.reads = false →
    ∀ asked, handed.declaration.same asked = true → handed.declaration.hash = asked.hash →
      ∀ number, ∃ after, (byOne number (SpillArea.restore asked handed.block)).Succeeds sharing
        (handed.chunks.filter (!·.isEmpty)) after
  refuses : ∀ handed ∈ live, ∀ asked,
    handed.declaration.same asked = false ∨ handed.declaration.hash ≠ asked.hash → ∀ number,
      ∃ status after, (byOne number (SpillArea.restore asked handed.block)).outcome sharing =
        (.error status, after) ∧ status.code = .storage
  unchanged : ∀ number declaration chunks status after,
    (byOne number (SpillArea.spill declaration chunks)).outcome sharing = (.error status, after) →
      after.store.blocks = sharing.store.blocks ∧ after.spillers = sharing.spillers

/-- Spillers that share a store do not get in each other's way, whatever the store holds to begin with,
whatever the format of its bodies is, and whichever of its calls fail. -/
theorem isolated_of_run
    {start sharing : Sharing}
    (faithful : start.store.damage = [])
    (run : Run start live sharing) :
    Isolated live sharing := by
  have holds := run.holds faithful
  refine {
    distinct := List.pairwise_map.mp holds.distinct
    restores := fun handed member fits readable asked same hash number =>
      holds.exists_restores member fits readable ⟨same, hash⟩ number
    refuses := fun handed member asked different number =>
      (holds.restore_fails member (fun agrees => ?_) number).exists_fails
    unchanged := fun number declaration chunks status after fails => ?_ }
  · obtain other | another := different
    · exact Bool.false_ne_true (other.symm.trans agrees.1)
    · exact another agrees.2
  · have unchanged := unchanged_of_refused fails
    exact ⟨unchanged.1.blocks, unchanged.2⟩

namespace Sample

def numbers : Schema := [{ name := "n", type := .int64 }]

def texts : Schema := [{ name := "t", type := .utf8 }]

def rowless : Chunk := ⟨numbers, [], by decide⟩

def one : Chunk := ⟨numbers, [[.int 1]], by decide⟩

def word : Chunk := ⟨texts, [[.text "a"]], by decide⟩

/-- Two spillers of different codecs, and a store that fails to write at its fourth call. -/
def start : Sharing where
  spillers number := { compression := if number = 0 then .lz4 else .zstd }
  store := { outageAt := fun call => { writes := call = 3 } }

/-- Another writer takes the path that is drawn first. -/
def occupied : Sharing :=
  ((byOthers (Store.create (Store.pathOf (Store.blockName 0)) [])).outcome start).2

/-- One spiller writes at the path that is drawn next. -/
def first : Step Sharing Block :=
  byOne 0 (SpillArea.spill numbers [rowless, one])

def firstBlock : Block :=
  valueOf (first.outcome occupied).1 (by decide +kernel)

/-- The other one fails to write, and tries again. -/
def second : Step Sharing Block :=
  byOne 1 (SpillArea.spill texts [word])

def failed : Sharing :=
  (second.outcome (first.outcome occupied).2).2

def secondBlock : Block :=
  valueOf (second.outcome failed).1 (by decide +kernel)

def blocks : List Handed :=
  [⟨secondBlock, texts, [word]⟩, ⟨firstBlock, numbers, [rowless, one]⟩]

def last : Sharing :=
  (second.outcome failed).2

theorem run_last : Run start blocks last := by
  have occupies : Run start [] occupied := Run.start.created _ _
  have writes : Run start [⟨firstBlock, numbers, [rowless, one]⟩] (first.outcome occupied).2 :=
    occupies.spilled (Step.succeeds_of_isOk first occupied (by decide +kernel))
  have fails : second.outcome (first.outcome occupied).2 =
      (.error (.storage "write spill block mem://b2.ipc failed: storage unavailable"), failed) :=
    Prod.ext (by decide +kernel) rfl
  exact (writes.refused fails).spilled (Step.succeeds_of_isOk second failed (by decide +kernel))

end Sample

/-- Two blocks that were written around a path that was taken and around a call that failed are
isolated. -/
theorem isolated_of_taken_path :
    Sample.start.store.damage = [] ∧ Run Sample.start Sample.blocks Sample.last ∧
      Isolated Sample.blocks Sample.last :=
  ⟨rfl, Sample.run_last, isolated_of_run rfl Sample.run_last⟩

namespace Sample

/-- A chunk with a column more than the schema that it is written for. -/
def wide : Chunk := ⟨numbers ++ texts, [[.int 1, .text "a"]], by decide⟩

def narrows : Step Sharing Block :=
  byOne 0 (SpillArea.spill numbers [wide])

def narrowed : Block :=
  valueOf (narrows.outcome start).1 (by decide +kernel)

/-- The same fields, with a remark that only the text shows. -/
def remarked : Declaration := { schema := numbers, remarks := [{ dictionary := 1 }] }

end Sample

/-- A chunk with a column more is not restored as it was written, and under the same fields with another
hash the block is not restored at all. -/
theorem not_restored_as_written :
    Run Sample.start [⟨Sample.narrowed, Sample.numbers, [Sample.wide]⟩]
        (Sample.narrows.outcome Sample.start).2 ∧
      (Sample.narrows.outcome Sample.start).2.store.outage.reads = false ∧
      (¬ ∃ after, (byOne 0 (SpillArea.restore Sample.numbers Sample.narrowed)).Succeeds
        (Sample.narrows.outcome Sample.start).2 [Sample.wide] after) ∧
      Declaration.same Sample.numbers Sample.remarked = true ∧
      ∃ status, ((byOne 0 (SpillArea.restore Sample.remarked Sample.narrowed)).outcome
        (Sample.narrows.outcome Sample.start).2).1 = .error status := by
  have written : Run Sample.start [⟨Sample.narrowed, Sample.numbers, [Sample.wide]⟩]
      (Sample.narrows.outcome Sample.start).2 :=
    Run.start.spilled (Step.succeeds_of_isOk Sample.narrows Sample.start (by decide +kernel))
  have narrow : ((byOne 0 (SpillArea.restore Sample.numbers Sample.narrowed)).outcome
      (Sample.narrows.outcome Sample.start).2).1 = .ok [Sample.one] := by
    decide +kernel
  have refused : ((byOne 0 (SpillArea.restore Sample.remarked Sample.narrowed)).outcome
      (Sample.narrows.outcome Sample.start).2).1 =
        .error (.storage "spill block mem://b0.ipc schema mismatch") := by
    decide +kernel
  refine ⟨written, rfl, fun ⟨after, restores⟩ => ?_, by decide, _, refused⟩
  have same : (.ok [Sample.one] : Except Status (List Chunk)) = .ok [Sample.wide] :=
    narrow.symm.trans (congrArg Prod.fst restores)
  exact absurd same (by decide)

end Sharing
end Spillway
