import Treatise.Corpus.Check
import Treatise.Proofs.Sorting

/-!
# What the natural order sorts

The natural order of paths is a comparison to sort by: swapping the paths turns its answer around,
and it is transitive. So are the orders that begin with it: that of references, by path and index,
and that of findings, by path and place. It does not tell all paths apart, since numbers may be
written with zeros in front.
-/

namespace Treatise.Corpus

/-! ## Paths -/

theorem compareText_eq : compareText = List.compareLex (compareOn Char.toNat) := by
  funext first second
  induction first generalizing second with
  | nil => cases second <;> rfl
  | cons character rest ih =>
      cases second with
      | nil => rfl
      | cons character' rest' =>
          rw [compareText, ih, List.compareLex_cons_cons]
          rfl

instance : Std.TransCmp compareText :=
  compareText_eq ▸ inferInstance

/-- Components that begin with numbers are compared by these, and then by what follows. -/
def compareNumbered : Nat × List Char → Nat × List Char → Ordering :=
  compareLex (compareOn Prod.fst) fun first second => compareText first.2 second.2

instance : Std.TransCmp fun first second : Nat × List Char => compareText first.2 second.2 :=
  transCmp_of_key Prod.snd

instance : Std.TransCmp compareNumbered :=
  inferInstanceAs (Std.TransCmp (compareLex _ _))

theorem compareComponents_eq (first second : List Char) : compareComponents first second
    = match numbered? first, numbered? second with
      | some found, some found' => compareNumbered found found'
      | some _, none => .lt
      | none, some _ => .gt
      | none, none => compareText first second := by
  unfold compareComponents
  cases numbered? first <;> cases numbered? second <;> rfl

instance : Std.TransCmp compareComponents where
  eq_swap {first second} := by
    rw [compareComponents_eq, compareComponents_eq]
    cases numbered? first <;> cases numbered? second
    · exact @Std.OrientedCmp.eq_swap _ compareText _ _ _
    · rfl
    · rfl
    · exact @Std.OrientedCmp.eq_swap _ compareNumbered _ _ _
  isLE_trans {first second third} below above := by
    rw [compareComponents_eq] at below above ⊢
    cases number : numbered? first <;> cases number' : numbered? second <;>
      cases number'' : numbered? third <;> simp only [number, number', number''] at below above ⊢
    case none.none.none => exact @Std.TransCmp.isLE_trans _ compareText _ _ _ _ below above
    case some.some.some => exact @Std.TransCmp.isLE_trans _ compareNumbered _ _ _ _ below above
    all_goals first | contradiction | rfl

theorem compareAll_eq : compareAll = List.compareLex compareComponents := by
  funext first second
  induction first generalizing second with
  | nil => cases second <;> rfl
  | cons component rest ih =>
      cases second with
      | nil => rfl
      | cons component' rest' => rw [compareAll, ih, List.compareLex_cons_cons]

instance : Std.TransCmp compareAll :=
  compareAll_eq ▸ inferInstance

instance : Std.TransCmp comparePaths :=
  transCmp_of_key fun path : String => components path.toList

theorem comparePaths_swap (first second : String) :
    comparePaths second first = (comparePaths first second).swap :=
  Std.OrientedCmp.eq_swap

theorem pathLe_iff {first second : String} :
    pathLe first second = true ↔ (comparePaths first second).isLE = true := by
  unfold pathLe
  cases comparePaths first second <;> decide

theorem sorts_pathLe : Sorts pathLe where
  trans first second third := by
    simp only [pathLe_iff]
    exact Std.TransCmp.isLE_trans
  total first second := by
    simp only [Bool.or_eq_true, pathLe_iff]
    rw [comparePaths_swap first second]
    cases comparePaths first second <;> decide

/-! ## References and findings -/

theorem sorts_referenceLe : Sorts referenceLe := by
  have byIndex : Sorts fun first second : Reference => decide (first.index ≤ second.index) :=
    ⟨by simpa using fun _ _ _ => Nat.le_trans, by simpa using fun _ _ => Nat.le_total _ _⟩
  exact byIndex.by_key Reference.path

/-- The order in which entries are looked at. -/
def placedLe (first second : Placed) : Bool :=
  referenceLe ⟨first.path, first.index, .start⟩ ⟨second.path, second.index, .start⟩

theorem sorts_findingLe : Sorts Finding.le :=
  (sorts_locationLe.of_key fun finding : Finding => finding.diagnostic.location).by_key Finding.path

theorem Finding.pairwise_sort (findings : List Finding) :
    (Finding.sort findings).Pairwise fun first second => Finding.le first second :=
  List.pairwise_mergeSort sorts_findingLe.trans sorts_findingLe.total findings

theorem Finding.sort_sort (findings : List Finding) :
    Finding.sort (Finding.sort findings) = Finding.sort findings :=
  List.mergeSort_of_pairwise (Finding.pairwise_sort findings)

/-- References that are tied have paths that the natural order does not tell apart. -/
theorem comparePaths_of_tied {first second : Reference}
    (ties : tied referenceLe first second = true) :
    comparePaths first.path second.path = .eq := by
  have swapped := comparePaths_swap first.path second.path
  rcases tied_iff.mp ties with ⟨below, above⟩
  cases order : comparePaths first.path second.path with
  | eq => rfl
  | gt => simp [referenceLe, order] at below
  | lt => simp [referenceLe, order, swapped] at above

end Treatise.Corpus
