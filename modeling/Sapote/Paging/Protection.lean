import Sapote.Paging.Identity
import Sapote.Paging.Supervisor

/-!
The supervisor's calls over whole runs. From the identity map on, the live tables hold only the
leaves of requests whose permissions were accepted, and what the calls leave is a partial map.
-/

namespace Sapote.Paging
open Library
variable {s : PagingState}

/-- A call, and what becomes of a partial map by its status. The supervisor maps small pages
only. -/
def supervisorStep (t : PagingState × AddressMap) : RangeOp → PagingState × AddressMap
  | .map va pa length permissions _ =>
    let (status, s) := pagingMap t.1 va pa length permissions
    (s, t.2.update (.map va pa length permissions false) status)
  | .unmap va length =>
    let (status, s) := pagingUnmap t.1 va length
    (s, t.2.update (.unmap va length) status)
  | .protect va length permissions =>
    let (status, s) := pagingProtect t.1 va length permissions
    (s, t.2.update (.protect va length permissions) status)

theorem update_congr {m n : AddressMap} {x : Nat} (same : m x = n x) (op : RangeOp)
    (status : PagingStatus) : m.update op status x = n.update op status x := by
  unfold AddressMap.update
  split
  · exact same
  · cases op <;> simp only [same]

/-- The live tables show the partial map. -/
def Agrees (t : PagingState × AddressMap) : Prop := Remaps t.1 t.1 t.2

theorem Agrees.call {t : PagingState × AddressMap} {op : RangeOp} {status : PagingStatus}
    (agrees : Agrees t) (call : Remaps t.1 s (t.1.view.update op status)) :
    Agrees (s, t.2.update op status) := by
  refine ⟨call.sound, rfl, fun x canonical => ?_⟩
  rw [call.view x canonical]
  exact update_congr (agrees.view x canonical) op status

theorem agrees_step (t : PagingState × AddressMap) (call : RangeOp) (agrees : Agrees t) :
    Agrees (supervisorStep t call) := by
  cases call with
  | map va pa length permissions _ =>
    exact agrees.call (pagingMap_remaps agrees.sound va pa length permissions)
  | unmap va length => exact agrees.call (pagingUnmap_remaps agrees.sound va length)
  | protect va length permissions =>
    exact agrees.call (pagingProtect_remaps agrees.sound va length permissions)

/-- What `paging_translate` reports after any calls is the partial map of those that returned OK,
refused calls and those undone for want of an intent changing nothing. -/
theorem supervisor_calls_refine_map (s : { s : PagingState // PagingSound s })
    (calls : List RangeOp) (x : { x : Nat // addressIsCanonical x }) :
    let result := run supervisorStep (s.1, s.1.view) calls
    pagingTranslate result.1 x = reported (result.2 x) := by
  have agrees := run_invariant supervisorStep Agrees agrees_step calls (s.1, s.1.view) (.refl s.2)
  exact (pagingTranslate_view agrees.sound x.2).trans (congrArg reported (agrees.view x x.2))

theorem callEach_requested (pat : Word) (ops : List RangeOp) {s : TableState}
    (sound : HierarchySound s) (requested : Requested s) :
    Requested (callEach pat ops s).state := by
  induction ops generalizing s with
  | nil => exact requested
  | cons op ops ih =>
    have first := @requested_step s pat sound requested op
    rw [callEach]
    split
    · exact first
    · exact ih (rangeStep_edits pat sound op).sound first

/-- Neither writable and executable nor open to user mode. -/
def Guarded (tr : PagingTranslation) : Prop :=
  ¬(wantsWrite tr.permissions ∧ wantsExecute tr.permissions) ∧ tr.user = false

theorem PagingSound.guarded (sound : PagingSound s) {x : Nat} (canonical : addressIsCanonical x) :
    ∀ tr ∈ s.view x, Guarded tr := by
  intro tr shown
  have found := translateAddress_view sound canonical
  rw [shown] at found
  obtain ⟨pa, permissions, level, request, -, mapped⟩ | none :=
    translateAddress_cases sound canonical
  · cases mapped.symm.trans found
    exact ⟨(validatePermissions_ok request.valid).2.1, rfl⟩
  · cases none.symm.trans found

/-- Built tables as they are installed, with no intents. -/
def installedPaging (built : TableState) (pat : Word) : PagingState :=
  ⟨built, [], pat, built.hierarchy.tableFrames, true⟩

/-- From the identity map on, no page is ever writable and executable or open to user mode. -/
theorem write_xor_execute_over_runs (layout : KernelLayout) (windows : List DeviceWindow)
    (pat : { pat : Word // PatLayout pat }) (root : { root : TableState // EmptyRoot root })
    (calls : List RangeOp) (x : { x : Nat // addressIsCanonical x }) :
    let built := (buildIdentityMap layout windows pat.1 root.1).state
    let start := installedPaging built pat.1
    ∀ tr ∈ (run supervisorStep (start, start.view) calls).1.view x, Guarded tr := by
  have edits := callEach_edits pat.1 (identityCalls layout windows) root.2.sound
  have requested := callEach_requested pat.1 (identityCalls layout windows) root.2.sound
    fun q e leaf => by cases (root.2.no_leaf q).symm.trans leaf
  have start : ∀ built, HierarchySound built → Requested built →
      Agrees (installedPaging built pat.1, (installedPaging built pat.1).view) :=
    fun _ sound requested => .refl ⟨sound, requested, pat.2, rfl⟩
  have after := run_invariant supervisorStep Agrees agrees_step calls _
    (start _ edits.sound requested)
  exact after.sound.guarded x.2

end Sapote.Paging
