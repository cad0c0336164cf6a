import Mathlib.Data.List.Nodup
import Mathlib.Logic.Function.Basic

/-!
# Memory

Objects that can be changed lie in numbered cells, and whoever knows the number of a cell can change
what lies there.  Objects do not disturb each other if the cells that belong to one of them are not
among those that belong to another one, and this stays so as long as they only get cells that were
free.
-/

namespace Galley.Compile

/-- Cells for objects of one kind.  Those from a number on are free. -/
structure Memory (α : Type) where
  free : Nat
  cell : Nat → α

namespace Memory

variable {α : Type}

/-- Changes what lies in a cell. -/
def write (memory : Memory α) (ref : Nat) (item : α) : Memory α :=
  { memory with cell := Function.update memory.cell ref item }

/-- Puts an object into the first free cell. -/
def alloc (memory : Memory α) (item : α) : Nat × Memory α :=
  (memory.free,
    { free := memory.free + 1, cell := Function.update memory.cell memory.free item })

/-- Puts copies of objects into free cells, each into one of its own. -/
def copyAll (memory : Memory α) : List Nat → List Nat × Memory α
  | [] => ([], memory)
  | ref :: refs =>
    let (copy, memory) := memory.alloc (memory.cell ref)
    let (copies, memory) := memory.copyAll refs
    (copy :: copies, memory)

variable {memory : Memory α} {ref other : Nat} {refs : List Nat}

@[simp]
theorem write_self (item : α) : (memory.write ref item).cell ref = item :=
  Function.update_self ..

@[simp]
theorem write_of_ne (item : α) (hother : other ≠ ref) :
    (memory.write ref item).cell other = memory.cell other :=
  Function.update_of_ne hother ..

/-- What has the same view in one cell has the same view in all. -/
theorem view_write {β : Type} (view : α → β) {item : α} (hview : view item = view (memory.cell ref))
    (other : Nat) : view ((memory.write ref item).cell other) = view (memory.cell other) := by
  by_cases hsame : other = ref
  · rw [hsame, write_self, hview]
  · rw [write_of_ne _ hsame]

theorem alloc_of_lt (item : α) (hother : other < memory.free) :
    (memory.alloc item).2.cell other = memory.cell other :=
  Function.update_of_ne (Nat.ne_of_lt hother) ..

/-- Copies lie in the cells that were free, and nothing else changes. -/
structure Copied (memory : Memory α) (refs : List Nat) (answer : List Nat × Memory α) : Prop where
  refs_eq : answer.1 = List.range' memory.free refs.length
  free_eq : answer.2.free = memory.free + refs.length
  cell_eq : ∀ ref < memory.free, answer.2.cell ref = memory.cell ref
  same : answer.1.map answer.2.cell = refs.map memory.cell

theorem copied_copyAll (hrefs : ∀ ref ∈ refs, ref < memory.free) :
    Copied memory refs (memory.copyAll refs) := by
  induction refs generalizing memory with
  | nil => exact ⟨rfl, rfl, fun _ _ => rfl, rfl⟩
  | cons ref refs ih =>
    obtain ⟨href, hrefs⟩ := List.forall_mem_cons.1 hrefs
    have hcopied : Copied (memory.alloc (memory.cell ref)).2 refs
        ((memory.alloc (memory.cell ref)).2.copyAll refs) :=
      ih fun other hother => Nat.lt_succ_of_lt (hrefs other hother)
    refine ⟨congrArg (memory.free :: ·) hcopied.refs_eq, ?_, fun other hother => ?_, ?_⟩
    · exact hcopied.free_eq.trans (by simp only [alloc, List.length_cons]; omega)
    · exact (hcopied.cell_eq other (Nat.lt_succ_of_lt hother)).trans (alloc_of_lt _ hother)
    · refine congrArg₂ List.cons ?_ (hcopied.same.trans (List.map_congr_left fun other hother => ?_))
      · exact (hcopied.cell_eq _ (Nat.lt_succ_self _)).trans (Function.update_self ..)
      · exact alloc_of_lt _ (hrefs other hother)

/-- What is written to one of several cells shows at its place. -/
theorem map_write (hrefs : refs.Nodup) {place : Nat} (href : refs[place]? = some ref) (item : α) :
    refs.map (memory.write ref item).cell = (refs.map memory.cell).set place item := by
  refine List.ext_getElem? fun other => ?_
  rw [List.getElem?_set, List.getElem?_map, List.getElem?_map]
  obtain ⟨hplace, rfl⟩ := List.getElem?_eq_some_iff.1 href
  split
  · rename_i hsame
    subst hsame
    rw [if_pos (by rwa [List.length_map]), href, Option.map_some, write_self]
  · rename_i hother
    cases hfound : refs[other]? with
    | none => rfl
    | some found =>
      obtain ⟨hlt, rfl⟩ := List.getElem?_eq_some_iff.1 hfound
      rw [Option.map_some, Option.map_some, write_of_ne]
      exact fun hsame => hother (hrefs.getElem_inj_iff.1 hsame).symm

end Memory

/-! ## Owners of cells -/

/-- No cell belongs to two of the first objects or twice to the same, and all that belong to them
are taken. -/
structure Apart (count free : Nat) (refs : Nat → List Nat) : Prop where
  nodup : ∀ owner < count, (refs owner).Nodup
  lt : ∀ owner < count, ∀ ref ∈ refs owner, ref < free
  disjoint : ∀ owner < count, ∀ other < count, owner ≠ other →
    (refs owner).Disjoint (refs other)

namespace Apart

variable {count free : Nat} {refs refs' : Nat → List Nat}

theorem congr (hapart : Apart count free refs) (hrefs : ∀ owner, refs' owner = refs owner) :
    Apart count free refs' := by
  obtain rfl : refs' = refs := funext hrefs
  exact hapart

/-- One object gets cells that were free, and it may be a new one. -/
theorem grow (hapart : Apart count free refs) {count' owner number : Nat} {own : List Nat}
    (hcount : ∀ other < count', other ≠ owner → other < count)
    (hothers : ∀ other < count', other ≠ owner → refs' other = refs other)
    (hown : own = [] ∨ owner < count ∧ own = refs owner)
    (hrefs : refs' owner = own ++ List.range' free number) :
    Apart count' (free + number) refs' := by
  have hown' : own.Nodup ∧ (∀ ref ∈ own, ref < free) ∧
      ∀ other < count, other ≠ owner → (refs other).Disjoint own := by
    obtain rfl | ⟨hlt, rfl⟩ := hown
    · exact ⟨.nil, by simp, fun _ _ _ => List.disjoint_nil_right _⟩
    · exact ⟨hapart.nodup _ hlt, hapart.lt _ hlt, fun other hother hne =>
        hapart.disjoint _ hother _ hlt hne⟩
  obtain ⟨hnodup, hlt, hdisjoint⟩ := hown'
  have hfresh : ∀ {cells : List Nat}, (∀ ref ∈ cells, ref < free) →
      cells.Disjoint (List.range' free number) := fun hcells ref href hnew => by
    have hbound := List.mem_range'_1.1 hnew
    exact absurd (hcells ref href) (by omega)
  have hbetween : ∀ other < count', other ≠ owner → (refs' other).Disjoint (refs' owner) :=
    fun other hother hne => by
      rw [hothers other hother hne, hrefs, List.disjoint_append_right]
      have hold := hcount other hother hne
      exact ⟨hdisjoint other hold hne, hfresh (hapart.lt other hold)⟩
  refine ⟨fun other hother => ?_, fun other hother ref href => ?_,
    fun one hone other hother hne => ?_⟩
  · by_cases hsame : other = owner
    · rw [hsame, hrefs]
      exact hnodup.append List.nodup_range' (hfresh hlt)
    · rw [hothers other hother hsame]
      exact hapart.nodup other (hcount other hother hsame)
  · by_cases hsame : other = owner
    · rw [hsame, hrefs] at href
      obtain hold | hnew := List.mem_append.1 href
      · exact Nat.lt_add_right _ (hlt ref hold)
      · exact (List.mem_range'_1.1 hnew).2
    · rw [hothers other hother hsame] at href
      exact Nat.lt_add_right _ (hapart.lt other (hcount other hother hsame) ref href)
  · by_cases hsame : other = owner
    · subst hsame
      exact hbetween one hone hne
    · by_cases hself : one = owner
      · subst hself
        exact List.disjoint_comm.1 (hbetween other hother hsame)
      · rw [hothers one hone hself, hothers other hother hsame]
        exact hapart.disjoint one (hcount one hone hself) other (hcount other hother hsame) hne

/-- One of the objects gets a cell that was free. -/
theorem extend (hapart : Apart count free refs) {owner : Nat} (howner : owner < count)
    (hothers : ∀ other < count, other ≠ owner → refs' other = refs other)
    (hrefs : refs' owner = refs owner ++ [free]) : Apart count (free + 1) refs' :=
  hapart.grow (fun _ hother _ => hother) hothers (.inr ⟨howner, rfl⟩) hrefs

/-- A new object gets cells that were free. -/
theorem add (hapart : Apart count free refs) {number : Nat}
    (hothers : ∀ other < count, refs' other = refs other)
    (hrefs : refs' count = List.range' free number) :
    Apart (count + 1) (free + number) refs' :=
  have hcount : ∀ other < count + 1, other ≠ count → other < count := by omega
  hapart.grow hcount (fun other hother hne => hothers other (hcount other hother hne)) (.inl rfl)
    hrefs

end Apart

end Galley.Compile
