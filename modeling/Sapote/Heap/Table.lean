import Sapote.Library.Tiling
import Sapote.Paging.Types

/-!
The block table of `src/kernel/heap.c`: one descriptor per span of the committed
region. `blocks[0 .. block_count)` is the list itself, so `block_count` is its
length; slots past the count are never read by the source.
-/

namespace Sapote.Heap
open Library Paging

def heapBase : Nat := 0x0000000400000000
def heapSize : Nat := 16 * 1024 * 1024
def heapAlignment : Nat := 16
def heapMaxBlocks : Nat := 256

structure HeapBlock where
  (offset size : Nat)
  used : Bool
deriving DecidableEq, Repr, Inhabited

/-- The source masks with `~(alignment - 1)`; for the two powers of two it is
called with that is rounding up to a multiple. -/
def alignUp (value alignment : Nat) : Nat :=
  (value + alignment - 1) / alignment * alignment

def findFit (table : List HeapBlock) (size : Nat) : Option Nat :=
  table.findIdx? (fun block => !block.used && decide (size ≤ block.size))

def blockIndexForOffset (table : List HeapBlock) (offset : Nat) : Option Nat :=
  table.findIdx? (fun block => decide (block.offset = offset))

def removeBlock (table : List HeapBlock) (index : Nat) : List HeapBlock :=
  table.eraseIdx index

/-- Take the front of a free block. The remainder becomes a free block of its
own unless it is below the granularity; `false` is the full-table refusal. -/
def splitBlock (table : List HeapBlock) (index size : Nat) : Bool × List HeapBlock :=
  let block := table.getD index default
  let remainder := block.size - size
  if heapAlignment ≤ remainder then
    if table.length = heapMaxBlocks then (false, table)
    else
      -- The shift loop opens slot `index + 1`; both writes follow it.
      let rest : HeapBlock := ⟨block.offset + size, remainder, false⟩
      (true, (table.insertIdx (index + 1) rest).set index { block with size := size, used := true })
  else (true, table.set index { block with used := true })

def mergeForward (table : List HeapBlock) (index : Nat) : List HeapBlock :=
  let next := table.getD (index + 1) default
  if index + 1 < table.length && !next.used then
    removeBlock (table.modify index fun block => { block with size := block.size + next.size })
      (index + 1)
  else table

def mergeBackward (table : List HeapBlock) (index : Nat) : List HeapBlock :=
  let previous := table.getD (index - 1) default
  let block := table.getD index default
  if 0 < index && !previous.used then
    removeBlock (table.modify (index - 1) fun b => { b with size := b.size + block.size }) index
  else table

def mergeFreeNeighbours (table : List HeapBlock) (index : Nat) : List HeapBlock :=
  mergeBackward (mergeForward table index) index

def validateBlocks (committed : Nat) : Nat → Option HeapBlock → List HeapBlock → Bool
  | expected, _, [] => decide (expected = committed)
  | expected, previous, block :: rest =>
    if block.offset ≠ expected ∨ block.size = 0 ∨ block.size % heapAlignment ≠ 0 then false
    else if previous.any (fun p => !p.used) && !block.used then false
    else validateBlocks committed (expected + block.size) (some block) rest

def validateTable (table : List HeapBlock) (committed : Nat) : Bool :=
  if heapMaxBlocks < table.length then false
  else if table.length = 0 then decide (committed = 0)
  else validateBlocks committed 0 none table

structure TableValid (table : List HeapBlock) (committed : Nat) : Prop where
  bounded : table.length ≤ heapMaxBlocks
  tiles : Tiles HeapBlock.offset HeapBlock.size 0 table committed
  sized : ∀ block ∈ table, 0 < block.size ∧ block.size % heapAlignment = 0
  coalesced : table.IsChain fun left right => left.used ∨ right.used

theorem validateBlocks_iff (committed : Nat) (table : List HeapBlock) (expected : Nat)
    (previous : Option HeapBlock) :
    validateBlocks committed expected previous table ↔
      Tiles HeapBlock.offset HeapBlock.size expected table committed ∧
      (∀ block ∈ table, 0 < block.size ∧ block.size % heapAlignment = 0) ∧
      (previous.toList ++ table).IsChain
        (fun left right => left.used ∨ right.used) := by
  induction table generalizing expected previous with
  | nil => cases previous <;> simp [validateBlocks, Tiles]
  | cons block rest ih =>
    simp only [validateBlocks]
    split
    · rename_i bad
      simp only [Bool.false_eq_true, false_iff]
      rintro ⟨⟨start, _⟩, sized, _⟩
      have := sized block List.mem_cons_self
      obtain bad | bad | bad := bad
      · exact bad start
      · omega
      · exact bad this.2
    · rename_i good
      push Not at good
      cases previous with
      | none =>
        simp only [Option.any_none, Bool.false_and, Bool.false_eq_true, if_false, ih]
        simp [Tiles, good.1, good.2.2, pos_of_ne_zero good.2.1]
      | some p =>
        cases hp : p.used <;> cases hb : block.used <;>
          simp [hp, hb, ih, Tiles, good.1, good.2.2, pos_of_ne_zero good.2.1]

theorem validateTable_iff (table : List HeapBlock) (committed : Nat) :
    validateTable table committed ↔ TableValid table committed := by
  unfold validateTable
  split
  · rename_i large
    simp only [Bool.false_eq_true, false_iff]
    intro valid
    exact absurd valid.bounded (by omega)
  · rename_i small
    split
    · rename_i empty
      obtain rfl := List.eq_nil_of_length_eq_zero empty
      simp only [decide_eq_true_eq]
      constructor
      · rintro rfl
        exact ⟨by simp, rfl, by simp, List.isChain_nil⟩
      · intro valid
        exact valid.tiles.symm
    · rw [validateBlocks_iff]
      constructor
      · rintro ⟨tiles, sized, coalesced⟩
        exact ⟨by omega, tiles, sized, by simpa using coalesced⟩
      · rintro ⟨_, tiles, sized, coalesced⟩
        exact ⟨tiles, sized, by simpa using coalesced⟩

end Sapote.Heap
