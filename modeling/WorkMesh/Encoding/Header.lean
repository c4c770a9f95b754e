import WorkMesh.Encoding.Text

/-!
# Request headers

A header maps the canonical form of a name to its values.
-/

namespace Encoding

/-- `http.Header`. -/
abbrev Header := List (String × List Bytes)

/-- `http.CanonicalHeaderKey`: the first letter and those after a hyphen are capitals. -/
def canonicalHeaderKey (name : String) : String := String.ofList (capitalize true name.toList)
where
  capitalize : Bool → List Char → List Char
    | _, [] => []
    | first, c :: rest =>
        (if first then c.toUpper else c.toLower) :: capitalize (c == '-') rest

namespace Header

variable (header : Header) (name other : String) (value : Bytes)

/-- `Header.Get`: the first value of a name, empty if there is none. -/
def get : Bytes := ((header.lookup (canonicalHeaderKey name)).bind List.head?).getD []

/-- `Header.Set`. -/
def set : Header :=
  (canonicalHeaderKey name, [value]) ::
    header.filter fun entry => entry.1 ≠ canonicalHeaderKey name

theorem lookup_filter_ne {key dropped : String} (h : key ≠ dropped) :
    List.lookup key (header.filter fun entry => entry.1 ≠ dropped) = header.lookup key := by
  induction header with
  | nil => rfl
  | cons entry rest ih =>
      by_cases hentry : entry.1 = dropped
      · have hne : (key == entry.1) = false := beq_eq_false_iff_ne.mpr (hentry ▸ h)
        rw [List.filter_cons_of_neg (by simpa using hentry), ih, List.lookup_cons, hne]
      · rw [List.filter_cons_of_pos (by simpa using hentry), List.lookup_cons, List.lookup_cons, ih]

theorem lookup_set_of_ne {name other : String} (value : Bytes)
    (h : canonicalHeaderKey other ≠ canonicalHeaderKey name) :
    (header.set name value).lookup (canonicalHeaderKey other) =
      header.lookup (canonicalHeaderKey other) := by
  rw [set, List.lookup_cons, beq_eq_false_iff_ne.mpr h]
  exact lookup_filter_ne header h

theorem get_set_self : (header.set name value).get name = value := by
  rw [get, set, List.lookup_cons_self]
  rfl

theorem get_set_of_ne {header : Header} {name other : String} {value : Bytes}
    (h : canonicalHeaderKey other ≠ canonicalHeaderKey name) :
    (header.set name value).get other = header.get other := by
  rw [get, lookup_set_of_ne _ _ h, get]

end Header

end Encoding
