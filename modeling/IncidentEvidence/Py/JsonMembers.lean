import IncidentEvidence.Py.Json

/-! # Reading and editing JSON objects

    The members of an object, and the object with a member removed or with
    members added. The encoder sorts the keys, so the order in which an edited
    object lists its members does not show in its text (`dumps_obj_perm`).
-/

namespace Py

/-- The members of an object. -/
def Json.fields : Json → List (Str × Json)
  | .obj fields => fields
  | _ => []

/-- `j.get(key)` of an object. -/
def Json.get (j : Json) (key : String) : Option Json :=
  (j.fields.find? fun kv => kv.1 = Py.str key).map (·.2)

/-- The object without a key. -/
def Json.without (j : Json) (key : String) : Json :=
  .obj (j.fields.filter fun kv => kv.1 ≠ Py.str key)

/-- The object with the members of another one at some keys. -/
def Json.withMembers (j source : Json) (keys : List String) : Json :=
  .obj (j.fields ++ keys.filterMap fun key => (source.get key).map fun v => (Py.str key, v))

/-- The text is the document's compact encoding with sorted keys, and a line feed. -/
def Encodes (s : Str) (document : Json) : Prop := document.Canonical ∧ s = dumps document ++ str "\n"

/-- A text encodes one document only. -/
theorem Encodes.unique {s : Str} {document document' : Json} (h : Encodes s document)
    (h' : Encodes s document') : document' = document := by
  obtain ⟨hcanonical, rfl⟩ := h
  obtain ⟨hcanonical', htext⟩ := h'
  exact (dumps_inj hcanonical hcanonical' (List.append_cancel_right htext)).symm

/-- **The encoder does not see the order of the members.** -/
theorem dumps_obj_perm {fs fs' : List (Str × Json)} (hperm : fs.Perm fs')
    (hnodup : (fs.map Prod.fst).Nodup) : dumps (.obj fs) = dumps (.obj fs') := by
  have hfields : ∀ l : List (Str × Json), dumpsFields l = l.map fun kv => (kv.1, dumps kv.2) := by
    intro l
    induction l with
    | nil => rfl
    | cons kv l ih => rw [dumpsFields, ih, List.map_cons]
  have hdumps : (dumpsFields fs).Perm (dumpsFields fs') := by
    rw [hfields, hfields]
    exact hperm.map _
  -- two sorted permutations with distinct keys are one list
  have hsorted : sortKeys (dumpsFields fs) = sortKeys (dumpsFields fs') := by
    have hkeys : ((dumpsFields fs).map Prod.fst).Nodup := by
      rw [dumpsFields_keys]
      exact hnodup
    have hinj : ∀ a ∈ dumpsFields fs, ∀ b ∈ dumpsFields fs, a.1 = b.1 → a = b :=
      fun a ha b hb => List.inj_on_of_nodup_map hkeys ha hb
    have hpairwise : ∀ l : List (Str × Str), (sortKeys l).Pairwise fun a b => a.1 ≤ b.1 := by
      intro l
      have htotal : Std.Total fun a b : Str × Str => a.1 ≤ b.1 := ⟨fun a b => le_total a.1 b.1⟩
      have htrans : IsTrans (Str × Str) fun a b => a.1 ≤ b.1 := ⟨fun _ _ _ => le_trans⟩
      exact List.pairwise_insertionSort _ l
    have hsort : (sortKeys (dumpsFields fs)).Perm (dumpsFields fs) := List.perm_insertionSort _ _
    have hsort' : (sortKeys (dumpsFields fs')).Perm (dumpsFields fs') := List.perm_insertionSort _ _
    refine List.Perm.eq_of_pairwise ?_ (hpairwise _) (hpairwise _)
      ((hsort.trans hdumps).trans hsort'.symm)
    intro a b ha hb hab hba
    exact hinj a (hsort.mem_iff.mp ha) b (hdumps.mem_iff.mpr (hsort'.mem_iff.mp hb))
      (le_antisymm hab hba)
  rw [dumps, dumps, hsorted]

@[simp] theorem str_inj {a b : String} : str a = str b ↔ a = b := by
  refine ⟨fun h => ?_, fun h => by rw [h]⟩
  have hinj : Function.Injective CodePoint.scalar := fun _ _ hcd => CodePoint.scalar.inj hcd
  exact String.toList_injective (List.map_injective_iff.mpr hinj h)

/-- The same of a dict display with other keys. -/
theorem dumps_jsonObj_perm {fields fields' : List (String × Json)} (hperm : fields.Perm fields')
    (hnodup : (fields.map Prod.fst).Nodup) : dumps (jsonObj fields) = dumps (jsonObj fields') := by
  refine dumps_obj_perm (hperm.map _) ?_
  rw [List.map_map]
  have hkeys := hnodup.map (f := str) fun _ _ h => str_inj.mp h
  rwa [List.map_map] at hkeys

/-- The elements of a list at all its positions, in any order. -/
theorem perm_of_positions {α : Type} (l : List α) (default : α) {positions : List Nat}
    (h : positions.Perm (List.range l.length)) :
    (positions.map fun k => l.getD k default).Perm l := by
  have hrange : (List.range l.length).map (fun k => l.getD k default) = l := by
    apply List.ext_getElem
    · simp
    · intro k _ hk
      simp [hk]
  have hmap := h.map fun k => l.getD k default
  rwa [hrange] at hmap

end Py
