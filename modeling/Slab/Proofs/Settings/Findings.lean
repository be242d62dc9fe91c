import Slab.Proofs.Dict
import Slab.Settings.Findings

/-!
# Remarks on what is found

In whatever order the entries of records are listed, the remarks are the same, and nothing that was
added is lost.

* `Finding.perm_remarks`: one order of listing against another;
* `Findings.perm_complain`, `Findings.perm_lookInto`: what is found after an addition;
* `Findings.remarks_perm`: the remarks on a record, field by field.
-/

namespace Slab

variable (order order' : Listing)

theorem Listing.all_perm (path : String) (l : List (String × List Remark)) :
    (order.all path l).Perm (l.flatMap Prod.snd) :=
  (order.perm path l).flatMap_right Prod.snd

variable {order order'}

theorem Listing.all_perm_all {l m : List (String × List Remark)}
    (h : (l.flatMap Prod.snd).Perm (m.flatMap Prod.snd)) (path : String) :
    (order.all path l).Perm (order'.all path m) :=
  (order.all_perm path l).trans (h.trans (order'.all_perm path m).symm)

namespace Finding

variable (order order')

mutual

/-- The order in which entries are listed decides on the order of the remarks only. -/
theorem perm_remarks (path : String) (f : Finding) :
    (f.remarks order path).Perm (f.remarks order' path) := by
  match f with
  | complaints l => exact List.Perm.refl _
  | inside l => exact Listing.all_perm_all (perm_ofFields path l) path
  | items l => exact perm_ofItems path l
termination_by structural f

theorem perm_ofFields (path : String) (l : List (String × Finding)) :
    ((ofFields order path l).flatMap Prod.snd).Perm
      ((ofFields order' path l).flatMap Prod.snd) := by
  match l with
  | [] => exact List.Perm.refl _
  | e :: l => exact (perm_ofField path e).append (perm_ofFields path l)
termination_by structural l

theorem perm_ofField (path : String) (e : String × Finding) :
    (ofField order path e).2.Perm (ofField order' path e).2 := by
  match e with
  | (field, f) => exact perm_remarks (fieldPath path field) f
termination_by structural e

theorem perm_ofItems (path : String) (l : List (Nat × List (String × Finding))) :
    (ofItems order path l).Perm (ofItems order' path l) := by
  match l with
  | [] => exact List.Perm.refl _
  | e :: l => exact (perm_ofItem path e).append (perm_ofItems path l)
termination_by structural l

theorem perm_ofItem (path : String) (e : Nat × List (String × Finding)) :
    (ofItem order path e).Perm (ofItem order' path e) := by
  match e with
  | (index, l) => exact Listing.all_perm_all (perm_ofFields (itemPath path index) l) _
termination_by structural e

end

/-- Listed by their keys, the fields of a record come one after the other. -/
theorem remarks_inside (path : String) (l : List (String × Finding)) :
    (inside l).remarks .byKey path =
      l.flatMap fun e => e.2.remarks .byKey (fieldPath path e.1) := by
  show (ofFields .byKey path l).flatMap Prod.snd = _
  induction l with
  | nil => rfl
  | cons e l ih =>
    obtain ⟨field, f⟩ := e
    rw [ofFields, List.flatMap_cons, List.flatMap_cons, ih]
    rfl

end Finding

namespace Findings

variable {d d' : Findings} {field : String}

theorem perm_complain (h : field ∉ d.keys) (c : Complaint) :
    (d.complain field c).Perm ((field, .complaints [c]) :: d) := by
  rw [complain, Dict.find?_eq_none_iff.2 h]
  exact Dict.perm_insert h _

theorem perm_lookInto (h : field ∉ d.keys) {inner : Findings} (hinner : inner ≠ []) :
    (d.lookInto field inner).Perm ((field, .inside inner) :: d) := by
  rw [lookInto, if_neg (mt List.isEmpty_iff.1 hinner)]
  exact Dict.perm_insert h _

/-- The remarks on a record are those on its fields, whatever the order. -/
theorem remarks_perm (order : Listing) (h : d.Perm d') :
    (d.remarks order).Perm (d'.flatMap fun e => e.2.remarks .byKey (fieldPath "" e.1)) := by
  have hkey := Finding.perm_remarks order .byKey "" (.inside d)
  rw [Finding.remarks_inside] at hkey
  exact hkey.trans (h.flatMap_right _)

end Findings
end Slab
