import SurfaceLoom.Lib.JsonWrite
import SurfaceLoom.Lib.StableSort

/-! # Texts in the order of their code units

Strings compared the way `sort()` compares them, by their UTF-16 code units. -/
namespace SurfaceLoom.Lib.CodeUnits

def codeUnits (s : String) : List Nat := s.toList.flatMap fun c => JsonText.utf16 (JsonText.code c)

theorem codeUnits_inj {a b : String} (h : codeUnits a = codeUnits b) : a = b := by
  have hchars := congrArg JsonText.fromUnits h
  rw [codeUnits, codeUnits, JsonText.fromUnits_utf16, JsonText.fromUnits_utf16] at hchars
  exact String.toList_inj.mp hchars

/-- `a < b` -/
def precedes (a b : String) : Bool := codeUnits a < codeUnits b

theorem precedes_total {a b : String} (hab : precedes a b = false) (hba : precedes b a = false) :
    a = b := by
  rw [precedes, decide_eq_false_iff_not, not_lt] at hab hba
  exact codeUnits_inj (le_antisymm hba hab)

theorem precedes_weakOrder : StableSort.WeakOrder precedes := by
  constructor
  · intro a b c hab hbc
    rw [precedes, decide_eq_false_iff_not, not_lt] at *
    exact le_trans hab hbc
  · intro a b
    rw [precedes, precedes, decide_eq_false_iff_not, decide_eq_false_iff_not, not_lt, not_lt]
    exact le_total _ _

/-- `keys.sort()` -/
def sort (keys : List String) : List String := StableSort.stableSort precedes keys

theorem mem_sort {keys : List String} {key : String} : key ∈ sort keys ↔ key ∈ keys :=
  StableSort.mem_stableSort

end SurfaceLoom.Lib.CodeUnits
