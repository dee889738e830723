import Mathlib.Data.List.Induction
import Mathlib.Data.List.Nodup
import Portability.Catalog

namespace Portability

lemma Identifier.id_ne_nil (x : Identifier) : x.id ≠ [] := by
  simp [id]

namespace Catalog

variable {c : Catalog} {e x : Identifier} {xs : List Identifier} {k : Kind} {i : Text}

def settle (o : Option Identifier) (e : Identifier) : Option Identifier :=
  match o with
  | none => some e
  | some x => if x.deprecated && !e.deprecated then some e else some x

def chosen (xs : List Identifier) : Option Identifier :=
  (xs.find? fun x => !x.deprecated).or xs.head?

lemma chosen_concat : chosen (xs ++ [e]) = settle (chosen xs) e := by
  have hone : [e].find? (fun x => !x.deprecated) = if e.deprecated then none else some e := by
    cases hd : e.deprecated <;> simp [hd]
  rw [chosen, chosen, List.find?_append, hone]
  cases hf : xs.find? fun x => !x.deprecated with
  | some x =>
    have hx := List.find?_some hf
    rw [Option.some_or, Option.some_or, Option.some_or, settle]
    simp_all
  | none =>
    cases xs with
    | nil => cases hd : e.deprecated <;> simp [settle]
    | cons y ys =>
      have hy : y.deprecated = true := by simpa using List.find?_eq_none.mp hf y List.mem_cons_self
      cases hd : e.deprecated <;> simp [settle, hy, hd]

lemma chosen_isSome (h : x ∈ xs) : ∃ y, chosen xs = some y := by
  cases xs with
  | nil => cases h
  | cons y ys =>
    rw [chosen]
    cases (y :: ys).find? fun x => !x.deprecated with
    | none => exact ⟨y, rfl⟩
    | some z => exact ⟨z, rfl⟩

lemma mem_of_chosen (h : chosen xs = some x) :
    x ∈ xs ∧ (x.deprecated = true ↔ ∀ y ∈ xs, y.deprecated = true) := by
  rw [chosen] at h
  cases hf : xs.find? fun x => !x.deprecated with
  | some y =>
    obtain rfl : y = x := by simpa [hf] using h
    have hy : y.deprecated = false := by simpa using List.find?_some hf
    have hmem : y ∈ xs := List.mem_of_find?_eq_some hf
    refine ⟨hmem, fun hd => absurd hd (by simp [hy]), fun hall => hall y hmem⟩
  | none =>
    have hall : ∀ y ∈ xs, y.deprecated = true := by simpa using hf
    have hmem : x ∈ xs := List.mem_of_mem_head? (by simpa [hf] using h)
    exact ⟨hmem, fun _ => hall, fun _ => hall x hmem⟩

lemma id_eq_of_replaced (h : x.id = e.id) :
    (if x.deprecated && !e.deprecated then e else x).id = e.id := by
  split
  · rfl
  · exact h

lemma find?_enter : (enter e xs).find? (fun x => x.id = i) =
    if e.id = i then settle (xs.find? fun x => x.id = i) e else xs.find? fun x => x.id = i := by
  induction xs with
  | nil => by_cases hi : e.id = i <;> simp [enter, settle, hi]
  | cons y ys ih =>
    by_cases hy : y.id = e.id
    · rw [enter, if_pos hy, List.find?_cons, List.find?_cons, id_eq_of_replaced hy, hy]
      by_cases hi : e.id = i
      · simp only [hi, decide_true, if_true, settle]
        split <;> rfl
      · simp [hi]
    · rw [enter, if_neg hy, List.find?_cons, ih]
      by_cases hi : e.id = i
      · simp_all
      · by_cases hyi : y.id = i <;> simp_all

lemma ofKind_insert : (c.insert e).ofKind k =
    if e.kind = k then enter e (c.ofKind k) else c.ofKind k := by
  obtain ⟨groups⟩ := c
  simp only [insert, ofKind]
  induction groups with
  | nil => by_cases hk : e.kind = k <;> simp [enterGroup, enter, hk]
  | cons group groups ih =>
    by_cases hg : group.1 = e.kind
    · by_cases hk : e.kind = k <;> simp_all [enterGroup]
    · rw [enterGroup, if_neg hg]
      by_cases hgk : group.1 = k
      · have hk : e.kind ≠ k := fun h => hg (hgk.trans h.symm)
        simp [hgk, hk]
      · simp only [List.find?_cons, hgk, decide_false]
        exact ih

lemma lookup_insert : (c.insert e).lookup k i =
    if e.kind = k ∧ e.id = i then settle (c.lookup k i) e else c.lookup k i := by
  by_cases hi : i = []
  · have he : ¬(e.kind = k ∧ e.id = i) := fun h => e.id_ne_nil (h.2.trans hi)
    rw [if_neg he]
    simp [lookup, hi]
  · have hn : i.isEmpty = false := by simpa using hi
    simp only [lookup, hn, ofKind_insert]
    by_cases hk : e.kind = k
    · simp [hk, find?_enter]
    · simp [hk]

lemma ofList_concat : ofList (xs ++ [e]) = (ofList xs).insert e := by
  rw [ofList, List.foldl_append]
  rfl

lemma lookup_ofList : (ofList xs).lookup k i =
    chosen (xs.filter fun x => x.kind = k ∧ x.id = i) := by
  induction xs using List.reverseRecOn with
  | nil => simp [ofList, empty, lookup, ofKind, chosen]
  | append_singleton xs e ih =>
    rw [ofList_concat, lookup_insert, ih, List.filter_append]
    by_cases h : e.kind = k ∧ e.id = i
    · simp [h, chosen_concat]
    · simp [h]

structure Ordered (c : Catalog) : Prop where
  kinds : (c.groups.map Prod.fst).Nodup
  kind_eq : ∀ group ∈ c.groups, ∀ x ∈ group.2, x.kind = group.1
  ids : ∀ group ∈ c.groups, (group.2.map Identifier.id).Nodup

lemma mem_of_mem_enter (h : x ∈ enter e xs) : x = e ∨ x ∈ xs := by
  induction xs with
  | nil => exact Or.inl (List.mem_singleton.mp h)
  | cons y ys ih =>
    rw [enter] at h
    split at h
    · rcases List.mem_cons.mp h with rfl | hx
      · split
        · exact Or.inl rfl
        · exact Or.inr List.mem_cons_self
      · exact Or.inr (List.mem_cons_of_mem _ hx)
    · rcases List.mem_cons.mp h with rfl | hx
      · exact Or.inr List.mem_cons_self
      · exact (ih hx).imp_right (List.mem_cons_of_mem _)

lemma cons_ite_mem {α : Type} {a b : α} {as : List α} [Decidable (b ∈ as)]
    [Decidable (b ∈ a :: as)] (h : a ≠ b) :
    (a :: if b ∈ as then as else as ++ [b]) =
      if b ∈ a :: as then a :: as else a :: as ++ [b] := by
  by_cases hb : b ∈ as
  · simp [hb]
  · simp [hb, Ne.symm h]

lemma map_id_enter : (enter e xs).map Identifier.id =
    if e.id ∈ xs.map Identifier.id then xs.map Identifier.id
    else xs.map Identifier.id ++ [e.id] := by
  induction xs with
  | nil => rfl
  | cons y ys ih =>
    by_cases hy : y.id = e.id
    · rw [enter, if_pos hy, List.map_cons, List.map_cons, id_eq_of_replaced hy, hy]
      simp only [List.mem_cons_self, if_true]
    · rw [enter, if_neg hy, List.map_cons, ih]
      exact cons_ite_mem hy

lemma nodup_enter (h : (xs.map Identifier.id).Nodup) : ((enter e xs).map Identifier.id).Nodup := by
  rw [map_id_enter]
  split
  · exact h
  · next he => simpa using h.concat he

lemma map_fst_enterGroup (groups : List (Kind × List Identifier)) :
    (enterGroup e groups).map Prod.fst =
      if e.kind ∈ groups.map Prod.fst then groups.map Prod.fst
      else groups.map Prod.fst ++ [e.kind] := by
  induction groups with
  | nil => rfl
  | cons group groups ih =>
    by_cases hg : group.1 = e.kind
    · simp [enterGroup, hg]
    · rw [enterGroup, if_neg hg, List.map_cons, ih]
      exact cons_ite_mem hg

lemma mem_enterGroup {groups : List (Kind × List Identifier)} {group : Kind × List Identifier}
    (h : group ∈ enterGroup e groups) :
    group ∈ groups ∨ group = (e.kind, [e]) ∨
      ∃ ys, (e.kind, ys) ∈ groups ∧ group = (e.kind, enter e ys) := by
  induction groups with
  | nil => exact Or.inr (Or.inl (List.mem_singleton.mp h))
  | cons first rest ih =>
    obtain ⟨kind, ys⟩ := first
    rw [enterGroup] at h
    split at h
    · next hk =>
      rcases List.mem_cons.mp h with rfl | hrest
      · exact Or.inr (Or.inr ⟨ys, by simp [hk], by rw [hk]⟩)
      · exact Or.inl (List.mem_cons_of_mem _ hrest)
    · rcases List.mem_cons.mp h with rfl | hrest
      · exact Or.inl List.mem_cons_self
      · rcases ih hrest with hold | hnew | ⟨zs, hzs, hz⟩
        · exact Or.inl (List.mem_cons_of_mem _ hold)
        · exact Or.inr (Or.inl hnew)
        · exact Or.inr (Or.inr ⟨zs, List.mem_cons_of_mem _ hzs, hz⟩)

lemma Ordered.insert (h : c.Ordered) : (c.insert e).Ordered := by
  constructor
  · rw [Catalog.insert, map_fst_enterGroup]
    split
    · exact h.kinds
    · next he => simpa using h.kinds.concat he
  · intro group hgroup x hx
    rcases mem_enterGroup hgroup with hold | rfl | ⟨ys, hys, rfl⟩
    · exact h.kind_eq group hold x hx
    · rw [List.mem_singleton.mp hx]
    · rcases mem_of_mem_enter hx with rfl | hy
      · rfl
      · exact h.kind_eq _ hys x hy
  · intro group hgroup
    rcases mem_enterGroup hgroup with hold | rfl | ⟨ys, hys, rfl⟩
    · exact h.ids group hold
    · exact List.nodup_singleton _
    · exact nodup_enter (h.ids _ hys)

lemma ordered_ofList (xs : List Identifier) : (ofList xs).Ordered := by
  induction xs using List.reverseRecOn with
  | nil => constructor <;> simp [ofList, empty]
  | append_singleton xs e ih =>
    rw [ofList_concat]
    exact ih.insert

lemma find?_eq_some_iff_of_nodup {α β : Type} [DecidableEq β] {f : α → β} {as : List α} {a : α}
    {b : β} (h : (as.map f).Nodup) : as.find? (fun a => f a = b) = some a ↔ a ∈ as ∧ f a = b := by
  constructor
  · intro hf
    exact ⟨List.mem_of_find?_eq_some hf, by simpa using List.find?_some hf⟩
  · rintro ⟨ha, rfl⟩
    have hsome : (as.find? fun a' => f a' = f a).isSome :=
      List.find?_isSome.mpr ⟨a, ha, decide_eq_true rfl⟩
    obtain ⟨a', ha'⟩ := Option.isSome_iff_exists.mp hsome
    have hfa : f a' = f a := by simpa using List.find?_some ha'
    rw [ha', List.inj_on_of_nodup_map h (List.mem_of_find?_eq_some ha') ha hfa]

lemma lookup_eq_some_iff (h : c.Ordered) :
    c.lookup k i = some x ↔ x ∈ c.entries ∧ x.kind = k ∧ x.id = i := by
  have hgroup (group : Kind × List Identifier) :
      c.groups.find? (fun group => group.1 = k) = some group ↔ group ∈ c.groups ∧ group.1 = k :=
    find?_eq_some_iff_of_nodup h.kinds
  rw [entries, List.mem_flatMap]
  constructor
  · intro hx
    rw [lookup] at hx
    split at hx
    · cases hx
    · rw [ofKind] at hx
      cases hf : c.groups.find? fun group => group.1 = k with
      | none => simp [hf] at hx
      | some group =>
        obtain ⟨hmem, rfl⟩ := (hgroup group).mp hf
        simp only [hf, Option.map_some, Option.getD_some] at hx
        obtain ⟨hxs, hid⟩ := (find?_eq_some_iff_of_nodup (h.ids group hmem)).mp hx
        exact ⟨⟨group, hmem, hxs⟩, h.kind_eq group hmem x hxs, hid⟩
  · rintro ⟨⟨group, hmem, hxs⟩, rfl, rfl⟩
    have hn : x.id.isEmpty = false := by simpa using x.id_ne_nil
    have hf := (hgroup group).mpr ⟨hmem, (h.kind_eq group hmem x hxs).symm⟩
    rw [lookup, hn, ofKind, hf]
    exact (find?_eq_some_iff_of_nodup (h.ids group hmem)).mpr ⟨hxs, rfl⟩

def plain (c : Catalog) : Catalog := ofList (c.entries.filter fun x => !x.deprecated)

lemma lookup_plain (h : c.Ordered) :
    c.plain.lookup k i = (c.lookup k i).filter fun x => !x.deprecated := by
  have hmem (x : Identifier) :
      x ∈ (c.entries.filter fun x => !x.deprecated).filter (fun x => x.kind = k ∧ x.id = i) ↔
        c.lookup k i = some x ∧ x.deprecated = false := by
    rw [lookup_eq_some_iff h]
    simp only [List.mem_filter, decide_eq_true_eq, Bool.not_eq_true']
    tauto
  rw [plain, lookup_ofList]
  cases hxs : (c.entries.filter fun x => !x.deprecated).filter fun x => x.kind = k ∧ x.id = i with
  | nil =>
    cases hl : c.lookup k i with
    | none => rfl
    | some x =>
      have hx : x.deprecated = true := by
        rw [← Bool.not_eq_false]
        intro hd
        have hnil := (hmem x).mpr ⟨hl, hd⟩
        rw [hxs] at hnil
        exact List.not_mem_nil hnil
      simp [hx, chosen, Option.filter]
  | cons x xs =>
    obtain ⟨hl, hd⟩ := (hmem x).mp (by rw [hxs]; exact List.mem_cons_self)
    simp [hl, hd, chosen, Option.filter]

end Catalog

end Portability
