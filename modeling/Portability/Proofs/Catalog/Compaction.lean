import Portability.Proofs.Catalog.Contents

/-! Lists of which a part is replaced by the entries of the catalog that is built from it. -/

namespace Portability.Catalog

variable {c : Catalog} {k : Kind} {i : Text} {e : Identifier} {o p : Option Identifier}
variable {xs ys xs' ys' : List Identifier}

lemma ofList_eq_iff : ofList xs = ofList ys ↔ kindsIn xs = kindsIn ys ∧
    (∀ k, idsIn xs k = idsIn ys k) ∧ ∀ k i, chosenIn xs k i = chosenIn ys k i := by
  simp only [← kinds_ofList, ← ids_ofList, ← lookup_eq_chosenIn]
  constructor
  · intro h
    simp [h]
  · rintro ⟨hkinds, hids, hlookup⟩
    exact (ordered_ofList xs).ext (ordered_ofList ys) hkinds hids hlookup

section Append

def prefer (o p : Option Identifier) : Option Identifier := p.elim o (settle o)

lemma settle_prefer : settle (prefer o p) e = prefer o (settle p e) := by
  cases p with
  | none => rfl
  | some y =>
    cases o with
    | none => cases hy : y.deprecated <;> cases he : e.deprecated <;> simp [prefer, settle, hy, he]
    | some x =>
      cases hx : x.deprecated <;> cases hy : y.deprecated <;> cases he : e.deprecated <;>
        simp [prefer, settle, hx, hy, he]

lemma chosen_append (xs ys : List Identifier) :
    chosen (xs ++ ys) = prefer (chosen xs) (chosen ys) := by
  induction ys using List.reverseRecOn with
  | nil =>
    rw [List.append_nil]
    rfl
  | append_singleton ys e ih => rw [← List.append_assoc, chosen_concat, ih, settle_prefer, chosen_concat]

lemma ofList_append_congr (hx : ofList xs = ofList xs') (hy : ofList ys = ofList ys') :
    ofList (xs ++ ys) = ofList (xs' ++ ys') := by
  rw [ofList_eq_iff] at hx hy ⊢
  obtain ⟨hkinds, hids, hchosen⟩ := hx
  obtain ⟨hkinds', hids', hchosen'⟩ := hy
  refine ⟨?_, fun k => ?_, fun k i => ?_⟩
  · simp only [kindsIn, List.map_append]
    exact eraseDups_append_congr hkinds hkinds'
  · simp only [idsIn, List.filter_append, List.map_append]
    exact eraseDups_append_congr (hids k) (hids' k)
  · have hboth (as bs : List Identifier) :
        chosenIn (as ++ bs) k i = prefer (chosenIn as k i) (chosenIn bs k i) := by
      rw [chosenIn, List.filter_append, chosen_append, chosenIn, chosenIn]
    rw [hboth, hboth, hchosen, hchosen']

end Append

section Entries

lemma eraseDups_map_const {α : Type} {as : List α} (h : as ≠ []) (k : Kind) :
    (as.map fun _ => k).eraseDups = [k] := by
  cases as with
  | nil => exact absurd rfl h
  | cons a as => simp [List.eraseDups_cons]

lemma eraseDups_map_fst_placesIn (xs : List Identifier) :
    ((placesIn xs).map Prod.fst).eraseDups = kindsIn xs := by
  have hids : ∀ k ∈ kindsIn xs, idsIn xs k ≠ [] := by
    intro k hk
    obtain ⟨x, hx, rfl⟩ := mem_kindsIn.mp hk
    exact List.ne_nil_of_mem (mem_idsIn.mpr ⟨x, hx, rfl, rfl⟩)
  have hnodup : (kindsIn xs).Nodup := nodup_eraseDups _
  rw [placesIn, List.map_flatMap]
  simp only [List.map_map, Function.comp_def]
  revert hids hnodup
  generalize kindsIn xs = ks
  intro hids hnodup
  induction ks using List.reverseRecOn with
  | nil => rfl
  | append_singleton ks k ih =>
    have hks := ih (fun l hl => hids l (List.mem_append_left _ hl)) (List.nodup_append.mp hnodup).1
    rw [List.flatMap_append, List.flatMap_singleton]
    have hlast : ((idsIn xs k).map fun _ => k).eraseDups = [k].eraseDups := by
      rw [eraseDups_map_const (hids k (by simp)), eraseDups_of_nodup (List.nodup_singleton k)]
    have hbefore := hks.trans (eraseDups_of_nodup (List.nodup_append.mp hnodup).1).symm
    exact (eraseDups_append_congr hbefore hlast).trans (eraseDups_of_nodup hnodup)

lemma filter_entries (h : c.Ordered) (k : Kind) :
    (c.entries.filter fun x => x.kind = k) = c.ofKind k := by
  obtain ⟨groups⟩ := c
  obtain ⟨hkinds, heq, -⟩ := h
  simp only [entries, ofKind] at hkinds heq ⊢
  induction groups with
  | nil => rfl
  | cons group rest ih =>
    obtain ⟨hfresh, hkinds⟩ := List.nodup_cons.mp hkinds
    obtain ⟨hgroup, heq⟩ := List.forall_mem_cons.mp heq
    rw [List.flatMap_cons, List.filter_append, List.find?_cons, ih hkinds heq]
    by_cases hk : group.1 = k
    · have hself : (group.2.filter fun x => x.kind = k) = group.2 :=
        List.filter_eq_self.mpr fun x hx => by simp [hgroup x hx, hk]
      have hrest : rest.find? (fun group => group.1 = k) = none := by
        rw [List.find?_eq_none]
        intro other hother hother'
        exact hfresh (List.mem_map.mpr ⟨other, hother, by simpa [hk] using hother'⟩)
      simp [hself, hrest, hk]
    · have hnil : (group.2.filter fun x => x.kind = k) = [] :=
        List.filter_eq_nil_iff.mpr fun x hx => by simp [hgroup x hx, hk]
      simp [hnil, hk]

lemma chosenIn_entries (h : c.Ordered) (k : Kind) (i : Text) :
    chosenIn c.entries k i = c.lookup k i := by
  have hmem (x : Identifier) :
      x ∈ (c.entries.filter fun x => x.kind = k ∧ x.id = i) ↔ c.lookup k i = some x := by
    rw [lookup_eq_some_iff h]
    simp
  rw [chosenIn]
  cases hl : c.lookup k i with
  | none =>
    rw [chosen_eq_none_iff, List.eq_nil_iff_forall_not_mem]
    intro x hx
    rw [hmem, hl] at hx
    cases hx
  | some x =>
    obtain ⟨y, hy⟩ := chosen_isSome ((hmem x).mpr hl)
    rw [hy, ← (hmem y).mp (mem_of_chosen hy).1, hl]

lemma ofList_entries (xs : List Identifier) : ofList (ofList xs).entries = ofList xs := by
  have hordered := ordered_ofList xs
  refine ofList_eq_iff.mpr ⟨?_, fun k => ?_, fun k i => ?_⟩
  · have hplaces : (ofList xs).entries.map Identifier.kind = (placesIn xs).map Prod.fst := by
      rw [← map_place_entries, List.map_map]
      rfl
    rw [kindsIn, hplaces, eraseDups_map_fst_placesIn]
  · rw [idsIn, filter_entries hordered, ← ids, eraseDups_of_nodup (nodup_ids hordered k), ids_ofList]
  · rw [chosenIn_entries hordered, lookup_eq_chosenIn]

end Entries

theorem build_compacted {Query Answer Note : Type} (answer : Query → Answer)
    (xs ys : List Identifier) :
    let built zs := (build zs : Routine Query Answer Note Catalog).value answer
    ∃ cx cy c, built xs = .ok cx ∧ built ys = .ok cy ∧ built (xs ++ ys) = .ok c ∧
      built cx.entries = .ok cx ∧ built (cx.entries ++ ys) = .ok c ∧
      built (cx.entries ++ cy.entries) = .ok c := by
  intro built
  have hbuilt (zs : List Identifier) : built zs = .ok (ofList zs) := value_extend answer empty zs
  have hxs : ofList (ofList xs).entries = ofList xs := ofList_entries xs
  have hys : ofList (ofList ys).entries = ofList ys := ofList_entries ys
  refine ⟨ofList xs, ofList ys, ofList (xs ++ ys), hbuilt xs, hbuilt ys, hbuilt _, ?_, ?_, ?_⟩
  · rw [hbuilt, hxs]
  · rw [hbuilt, ofList_append_congr hxs rfl]
  · rw [hbuilt, ofList_append_congr hxs hys]

def update : List Identifier := [typeAt "A" [] "D" false, typeAt "A" ["B"] "C" true]

theorem build_compacted_update :
    let built zs := (build zs : Routine Empty Empty Empty Catalog).value id
    (ofList overlapping).entries = [typeAt "A.B" [] "C" false, typeAt "A" [] "D" true,
      ⟨.nameSpace, Text.ofString "A", [], [], false⟩] ∧
    built ((ofList overlapping).entries ++ (ofList update).entries) =
      built (overlapping ++ update) ∧
    (built (overlapping ++ update)).map entries = .ok [typeAt "A.B" [] "C" false,
      typeAt "A" [] "D" false, ⟨.nameSpace, Text.ofString "A", [], [], false⟩] := by
  intro built
  obtain ⟨cx, cy, c, hx, hy, hall, -, -, hboth⟩ :=
    @build_compacted Empty Empty Empty id overlapping update
  obtain rfl : ofList overlapping = cx := Except.ok.inj hx
  obtain rfl : ofList update = cy := Except.ok.inj hy
  exact ⟨by decide, hboth.trans hall.symm, by decide⟩

end Portability.Catalog
