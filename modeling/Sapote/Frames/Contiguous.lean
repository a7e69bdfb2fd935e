import Sapote.Frames.Accounting

/-!
Exactness of `frame_allocate_contiguous`: the requests it satisfies, the base it picks, and
that its 64-bit arithmetic never wraps.
-/

namespace Sapote.Frames
open List Nat

open Paging

theorem powerOfTwo_iff {v : Nat} : powerOfTwo v ↔ ∃ k, v = 2 ^ k := by
  simp only [powerOfTwo, Bool.and_eq_true, decide_eq_true_eq]
  exact ne_zero_and_sub_one_eq_zero_iff_isPowerOfTwo

/-- What a request has to say; an alignment beyond the window or beyond the bound of the
request is met by no address but 0. -/
structure ContiguousRequest.WellFormed (request : ContiguousRequest) : Prop where
  pages : request.pageCount ≠ 0
  power : ∃ k, request.alignment = 2 ^ k
  paged : sapotePageSize ∣ request.alignment
  window : request.alignment ≤ earlyPhysicalLimit ∧
    request.alignment ≤ request.maximumPhysicalAddress + 1

structure Serves (a : FrameAllocator) (request : ContiguousRequest) (base : Nat) : Prop where
  aligned : request.alignment ∣ base
  free : ∀ i < request.pageCount, a.free (base / sapotePageSize + i)
  bound : base + request.pageCount * sapotePageSize - 1 ≤ request.maximumPhysicalAddress
  limit : base + request.pageCount * sapotePageSize - 1 < earlyPhysicalLimit

section

/-- `bound_end / SAPOTE_PAGE_SIZE` in 64 bits. -/
def maximumPastFrame64 (request : ContiguousRequest) : Nat :=
  let boundEnd :=
    if request.maximumPhysicalAddress = uint64Max then uint64Max
    else (request.maximumPhysicalAddress + 1) % 2 ^ 64
  (if earlyPhysicalLimit < boundEnd then earlyPhysicalLimit else boundEnd) / sapotePageSize

def contiguousRequestStatus64 (request : ContiguousRequest) : FrameStatus :=
  let length := request.pageCount * sapotePageSize % 2 ^ 64
  if request.pageCount = 0 then .zeroPageCount
  else if !powerOfTwo request.alignment ∨ request.alignment < sapotePageSize ∨
      request.alignment % sapotePageSize ≠ 0 then .badAlignment
  else if earlyPhysicalLimit < request.alignment ∨
      (request.maximumPhysicalAddress +
        (if request.maximumPhysicalAddress ≠ uint64Max then 1 else 0)) % 2 ^ 64 <
          request.alignment then .alignmentUnsatisfiable
  else if uint64Max / sapotePageSize < request.pageCount then .rangeOverflow
  else if length = 0 ∨ request.maximumPhysicalAddress < length - 1 then .addressBoundUnsatisfied
  else if maximumPastFrame64 request < request.pageCount then .addressBoundUnsatisfied
  else .ok

def findContiguousRun64 (allocator : FrameAllocator) (request : ContiguousRequest) : Option Nat :=
  (List.range (maximumPastFrame64 request - request.pageCount + 1)).find? fun first =>
    decide (first * sapotePageSize % 2 ^ 64 &&& (request.alignment - 1) = 0) &&
      (List.range request.pageCount).all fun offset => allocator.free ((first + offset) % 2 ^ 64)

variable {request : ContiguousRequest}

theorem maximumPastFrame64_eq (bound : request.maximumPhysicalAddress < 2 ^ 64) :
    maximumPastFrame64 request = maximumPastFrame request := by
  simp only [maximumPastFrame64, maximumPastFrame]
  by_cases top : request.maximumPhysicalAddress = uint64Max
  · simp only [if_pos top]
  · rw [if_neg top, if_neg top, mod_eq_of_lt (by rw [uint64Max] at top; omega)]

theorem contiguousRequestStatus64_eq (bound : request.maximumPhysicalAddress < 2 ^ 64) :
    contiguousRequestStatus64 request = contiguousRequestStatus request := by
  have sum : (request.maximumPhysicalAddress +
      (if request.maximumPhysicalAddress ≠ uint64Max then 1 else 0)) % 2 ^ 64 =
      request.maximumPhysicalAddress +
        (if request.maximumPhysicalAddress ≠ uint64Max then 1 else 0) := by
    refine mod_eq_of_lt ?_
    split <;> simp only [uint64Max] at * <;> omega
  simp only [contiguousRequestStatus64, contiguousRequestStatus, sum, maximumPastFrame64_eq bound]
  by_cases wide : uint64Max / sapotePageSize < request.pageCount
  · simp only [wide, if_true]
  have length : request.pageCount * sapotePageSize % 2 ^ 64 =
      request.pageCount * sapotePageSize := by
    refine mod_eq_of_lt ?_
    simp only [uint64Max, sapotePageSize] at *
    omega
  simp only [length]

theorem findContiguousRun64_eq (a : FrameAllocator) (bound : request.maximumPhysicalAddress < 2 ^ 64)
    (accepted : contiguousRequestStatus request = .ok) :
    findContiguousRun64 a request = findContiguousRun a request := by
  have fits := (contiguousRequestStatus_ok accepted).2
  have window := maximumPastFrame_le request
  have small : frameCount * sapotePageSize < 2 ^ 64 := by decide
  rw [findContiguousRun64, findContiguousRun, maximumPastFrame64_eq bound]
  refine find?_congr fun first inside => ?_
  rw [mem_range] at inside
  have base : first * sapotePageSize < 2 ^ 64 :=
    lt_of_le_of_lt (mul_le_mul_right _ (by omega)) small
  have word : frameCount < 2 ^ 64 := by decide
  have frames : ∀ offset ∈ List.range request.pageCount,
      a.free ((first + offset) % 2 ^ 64) = a.free (first + offset) := by
    intro offset within
    rw [mem_range] at within
    rw [mod_eq_of_lt (by omega)]
  rw [mod_eq_of_lt base, List.range'_eq_map_range, all_map, Bool.eq_iff_iff]
  simp +contextual only [Bool.and_eq_true, all_eq_true, frames, Function.comp_apply]

variable {a : FrameAllocator}

theorem le_maximumPastFrame {n : Nat} : n ≤ maximumPastFrame request ↔
    n * sapotePageSize ≤ earlyPhysicalLimit ∧
      n * sapotePageSize ≤ request.maximumPhysicalAddress + 1 := by
  have wide : earlyPhysicalLimit ≤ uint64Max := by decide
  rw [maximumPastFrame, le_div_iff_mul_le (by decide)]
  split <;> split <;> omega

theorem contiguousRequestStatus_eq_ok : contiguousRequestStatus request = .ok ↔
    request.WellFormed ∧ request.pageCount ≤ maximumPastFrame request := by
  have wide : earlyPhysicalLimit ≤ uint64Max := by decide
  constructor
  · intro accepted
    refine ⟨?_, (contiguousRequestStatus_ok accepted).2⟩
    unfold contiguousRequestStatus at accepted
    split at accepted
    · cases accepted
    next pages =>
    split at accepted
    · cases accepted
    next aligned =>
    simp only [not_or, Bool.not_eq_true, Bool.not_eq_false', not_lt, not_not] at aligned
    refine ⟨pages, powerOfTwo_iff.mp aligned.1, dvd_of_mod_eq_zero aligned.2.2, ?_⟩
    by_contra outside
    rw [if_pos (by split <;> omega)] at accepted
    cases accepted
  · rintro ⟨⟨pages, power, paged, window⟩, fits⟩
    have reach := le_maximumPastFrame.mp fits
    have positive := le_of_dvd (by obtain ⟨k, same⟩ := power; rw [same]; positivity) paged
    have small : ¬uint64Max / sapotePageSize < request.pageCount := by
      rw [not_lt, le_div_iff_mul_le (by decide)]
      omega
    have length : request.pageCount * sapotePageSize ≠ 0 := mul_ne_zero pages (by decide)
    rw [contiguousRequestStatus, if_neg pages, powerOfTwo_iff.mpr power,
      if_neg (by simp [not_lt.mpr positive, mod_eq_zero_of_dvd paged]),
      if_neg (by split <;> omega), if_neg small, if_neg (by omega), if_neg (not_lt.mpr fits)]

section
variable (formed : request.WellFormed)
include formed

/-- The test of the scan is that of the frames from its base on. -/
theorem serves_iff {base : Nat} : Serves a request base ↔
    ∃ first, base = first * sapotePageSize ∧ first + request.pageCount ≤ maximumPastFrame request ∧
      (decide (first * sapotePageSize &&& (request.alignment - 1) = 0) &&
        (List.range' first request.pageCount).all a.free) := by
  obtain ⟨pages, ⟨k, power⟩, paged, -⟩ := formed
  have length : 0 < request.pageCount * sapotePageSize := mul_pos (by omega) (by decide)
  have mask : ∀ first, (first * sapotePageSize &&& (request.alignment - 1) = 0 ↔
      request.alignment ∣ first * sapotePageSize) := by
    intro first
    rw [power, and_two_pow_sub_one_eq_mod, dvd_iff_mod_eq_zero]
  simp only [le_maximumPastFrame, add_mul, Bool.and_eq_true, decide_eq_true_eq, mask,
    all_eq_true, mem_range'_1]
  constructor
  · rintro ⟨aligned, free, bound, limit⟩
    obtain ⟨first, rfl⟩ := paged.trans aligned
    rw [mul_comm] at aligned bound limit
    rw [Nat.mul_div_cancel_left first (by decide)] at free
    refine ⟨first, mul_comm _ _, by omega, aligned, fun f inside => ?_⟩
    have here := free (f - first) (by omega)
    rwa [Nat.add_sub_cancel' inside.1] at here
  · rintro ⟨first, rfl, reach, aligned, free⟩
    refine ⟨aligned, fun i inside => ?_, by omega, by omega⟩
    rw [Nat.mul_div_cancel first (by decide)]
    exact free (first + i) (by omega)

/-- The scan finds the lowest base that serves. -/
theorem findContiguousRun_eq_some
    (fits : request.pageCount ≤ maximumPastFrame request) {first : Nat} :
    findContiguousRun a request = some first ↔
      IsLeast {base | Serves a request base} (first * sapotePageSize) := by
  have page : 0 < sapotePageSize := by decide
  rw [findContiguousRun, find?_range_eq_some, mem_range]
  constructor
  · rintro ⟨here, inside, earlier⟩
    refine ⟨(serves_iff formed).mpr ⟨first, rfl, by omega, here⟩, fun base serves => ?_⟩
    obtain ⟨other, rfl, -, there⟩ := (serves_iff formed).mp serves
    refine mul_le_mul_right _ (not_lt.mp fun before => ?_)
    have refused := earlier other before
    rw [there] at refused
    cases refused
  · rintro ⟨here, least⟩
    obtain ⟨same, equal, reach, accepted⟩ := (serves_iff formed).mp here
    obtain rfl := eq_of_mul_eq_mul_right page equal
    refine ⟨accepted, by omega, fun j before => ?_⟩
    rw [Bool.not_eq_true', ← Bool.not_eq_true]
    intro there
    have later := least ((serves_iff formed).mpr ⟨j, rfl, by omega, there⟩)
    exact absurd (le_of_mul_le_mul_right later page) (by omega)

theorem findContiguousRun_eq_none
    (none : findContiguousRun a request = none) (base : Nat) : ¬Serves a request base := by
  intro serves
  obtain ⟨first, -, reach, here⟩ := (serves_iff formed).mp serves
  have refused := find?_range_eq_none.mp none first (by omega)
  rw [here] at refused
  cases refused

end

/-- Unless frame 0 is free, only a base that serves needs to be asked for: the window of
the alignment comes with it. -/
theorem Serves.wellFormed {base : Nat} (serves : Serves a request base)
    (low : a.free 0 = false) (pages : request.pageCount ≠ 0)
    (power : ∃ k, request.alignment = 2 ^ k) (paged : sapotePageSize ∣ request.alignment) :
    request.WellFormed := by
  have above : request.alignment ≤ base := by
    refine le_of_dvd (pos_of_ne_zero ?_) serves.aligned
    rintro rfl
    have first := serves.free 0 (pos_of_ne_zero pages)
    rw [Nat.zero_div, low] at first
    cases first
  have bound := serves.bound
  have limit := serves.limit
  exact ⟨pages, power, paged, by omega, by omega⟩

end

/-- `frame_allocate_contiguous` succeeds exactly when it can, with the lowest base, without
wrapping; when it fails nothing has changed. -/
theorem contiguous_allocation_exact (a : FrameAllocator) (request : Option ContiguousRequest)
    (output : Bool) :
    ((frameAllocateContiguous a request output).status = .ok ↔
      ∃ r, request = some r ∧ output = true ∧ a.initialized = true ∧ r.WellFormed ∧
        (∃ slot, (a.contiguousRecords slot).active = false) ∧ ∃ base, Serves a r base) ∧
    (a.free 0 = false → ∀ r base, Serves a r base → (r.WellFormed ↔ r.pageCount ≠ 0 ∧
      (∃ k, r.alignment = 2 ^ k) ∧ sapotePageSize ∣ r.alignment)) ∧
    (∀ r, request = some r → (frameAllocateContiguous a request output).status = .ok →
      ∃ base, IsLeast {base | Serves a r base} base ∧
        (frameAllocateContiguous a request output).allocation = some ⟨base, r.pageCount,
          r.alignment, r.maximumPhysicalAddress, a.nextContiguousIdentifier, true⟩) ∧
    ((frameAllocateContiguous a request output).status ≠ .ok →
      (frameAllocateContiguous a request output).allocator = a) ∧
    ∀ r : ContiguousRequest, r.maximumPhysicalAddress < 2 ^ 64 →
      contiguousRequestStatus64 r = contiguousRequestStatus r ∧
      (contiguousRequestStatus r = .ok → findContiguousRun64 a r = findContiguousRun a r ∧
        ∀ first, findContiguousRun a r = some first →
          (first + r.pageCount) * sapotePageSize ≤ earlyPhysicalLimit) := by
  have exact : ∀ r, request = some r → (frameAllocateContiguous a request output).status = .ok →
      output = true ∧ a.initialized = true ∧ r.WellFormed ∧
        (∃ slot, (a.contiguousRecords slot).active = false) ∧
        ∃ base, IsLeast {base | Serves a r base} base ∧
          (frameAllocateContiguous a request output).allocation = some ⟨base, r.pageCount,
            r.alignment, r.maximumPhysicalAddress, a.nextContiguousIdentifier, true⟩ := by
    rintro r rfl ok
    obtain ⟨_, slot, first, ⟨⟩, -, ⟨-, writable, ready, accepted, found⟩, written, spare, -⟩ :=
      (frameAllocateContiguous_cases (some r) output).resolve_left fun refused => refused.1 ok
    obtain ⟨formed, fits⟩ := contiguousRequestStatus_eq_ok.mp accepted
    exact ⟨writable, ready, formed, ⟨slot, spare⟩, _,
      (findContiguousRun_eq_some formed fits).mp found, written⟩
  refine ⟨⟨fun ok => ?_, ?_⟩, ?_, fun r same ok => (exact r same ok).2.2.2.2, ?_, fun r bound =>
    ⟨contiguousRequestStatus64_eq bound, fun accepted => ⟨findContiguousRun64_eq a bound accepted, ?_⟩⟩⟩
  · obtain ⟨r, -, -, rfl, -⟩ := (frameAllocateContiguous_cases request output).resolve_left fun
      refused => refused.1 ok
    obtain ⟨writable, ready, formed, spare, base, least, -⟩ := exact r rfl ok
    exact ⟨r, rfl, writable, ready, formed, spare, base, least.1⟩
  · rintro ⟨r, rfl, rfl, ready, formed, ⟨slot, spare⟩, base, serves⟩
    obtain ⟨first, -, reach, -⟩ := (serves_iff formed).mp serves
    have accepted := contiguousRequestStatus_eq_ok.mpr ⟨formed, by omega⟩
    cases found : findContiguousRun a r with
    | none => exact absurd serves (findContiguousRun_eq_none formed found base)
    | some first => exact frameAllocateContiguous_status ready accepted spare found
  · intro low r base serves
    exact ⟨fun formed => ⟨formed.pages, formed.power, formed.paged⟩,
      fun h => serves.wellFormed low h.1 h.2.1 h.2.2⟩
  · intro failed
    obtain refused | taken := frameAllocateContiguous_cases request output
    · exact refused.2
    · obtain ⟨_, _, _, -, -, ok, -⟩ := taken
      exact absurd ok.1 failed
  · intro first found
    obtain ⟨reach, -, -⟩ := findContiguousRun_some (contiguousRequestStatus_ok accepted).2 found
    exact (le_maximumPastFrame.mp reach).1

end Sapote.Frames
