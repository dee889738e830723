import Portability.Proofs.Growth
import Portability.Proofs.Policy.Listing
import Portability.Proofs.Text.Trimming

namespace Portability

variable {n : Nat} {g : Graph n} {s : Option (Fin n)} {root : Fin n} {x y : Identifier}
variable {xs ys found : List Identifier} {catalog : Catalog} {token : Token} {cache : Cache n}

section Ids

def Kind.initial (kind : Kind) : Char := kind.tag?.getD ':'

lemma Kind.initial_injective : Function.Injective initial := by
  intro a b h
  cases a <;> cases b <;> first | rfl | exact absurd h (by decide)

lemma Identifier.head?_id (x : Identifier) : x.id.head? = some (.char x.kind.initial) := by
  rw [id, Kind.initial]
  cases x.kind.tag? <;> rfl

lemma Identifier.kind_eq_of_id_eq (h : x.id = y.id) : x.kind = y.kind := by
  have hhead := congrArg List.head? h
  rw [head?_id, head?_id, Option.some.injEq, CodePoint.char.injEq] at hhead
  exact Kind.initial_injective hhead

lemma Reach.tight_of_entry (hc : catalog.Ordered) {reach : Reach}
    (h : reach.entry g catalog s = some x) : Text.Tight x.id := by
  cases s with
  | none => cases h
  | some s =>
    obtain ⟨probe, -, hx⟩ := List.exists_of_findSome?_eq_some h
    obtain ⟨id, hlookup⟩ := Probe.exists_lookup_of_hit hx
    exact ((Catalog.lookup_eq_some_iff hc).mp hlookup).2.2 ▸ Text.trim_tight id

lemma Catalog.kind_of_findable (hc : catalog.Ordered) (hx : x ∈ catalog.findable) :
    Kind.ofId x.id = x.kind :=
  ((lookup_eq_some_iff hc).mp hx).2.1.symm

lemma Catalog.contains_ofList_iff : (ofList ys).contains x.kind x.id = true ↔
    ∃ y ∈ ys, y.id = x.id := by
  rw [contains, Option.isSome_iff_exists]
  constructor
  · rintro ⟨y, hy⟩
    obtain ⟨hmem, -, hid, -⟩ := lookup_ofList_some hy
    exact ⟨y, hmem, hid⟩
  · rintro ⟨y, hmem, hid⟩
    have hlookup := exists_lookup_ofList hmem
    rwa [Identifier.kind_eq_of_id_eq hid, hid] at hlookup

end Ids

lemma Walk.orderly_collect (hi : ∀ s, none ∉ (g s).interfaces) (coverage : Coverage) (s : Fin n) :
    Orderly (collect g coverage s) := by
  rw [collect]
  split
  · exact orderly_collectParameter hi coverage (some s)
  · exact orderly_collectType hi coverage (some s)

namespace Policy

variable {policy : Policy}

lemma reports_iff (ha : policy.allowed = .ofList ys) (ht : Text.Tight x.id)
    (hk : Kind.ofId x.id = x.kind) : policy.reports x = true ↔
      (x.deprecated = true → policy.settings.reportDeprecated = true) ∧ ∀ y ∈ ys, y.id ≠ x.id := by
  have hallows : policy.allows (some x.id) = true ↔ ∃ y ∈ ys, y.id = x.id := by
    rw [allows, ht.trim_eq, hk, ha, Catalog.contains_ofList_iff]
  rw [reports, Bool.and_eq_true, Bool.not_eq_true', ← Bool.not_eq_true, hallows]
  refine and_congr ?_ (by simp)
  cases x.deprecated <;> simp

lemma pairwise_id_select (hc : policy.catalog.Ordered) (h : policy.found g root = .ok found) :
    (policy.select found).Pairwise fun x y => x.id < y.id := by
  have hfindable : ∀ x ∈ policy.select found, x ∈ policy.catalog.findable := fun x hx =>
    findable_of_mem_found hc h x (List.mem_filter.mpr (mem_of_mem_select hx))
  refine (Identifier.pairwise_sort_distinct _).imp_of_mem fun {x y} hx hy hlt => ?_
  obtain hid | ⟨hid, hdeprecated⟩ := Prod.Lex.toLex_lt_toLex.mp hlt
  · exact hid
  · obtain rfl := Catalog.injOn_id_findable (hfindable x hx) (hfindable y hy) hid
    exact absurd hdeprecated (lt_irrefl _)

lemma mem_select_iff_of_allowed (hc : policy.catalog.Ordered) (ha : policy.allowed = .ofList ys)
    (h : policy.found g root = .ok found) : x ∈ policy.select found ↔ x ∈ found ∧
      (x.deprecated = true → policy.settings.reportDeprecated = true) ∧ ∀ y ∈ ys, y.id ≠ x.id := by
  rw [mem_select_iff hc h, and_comm]
  refine and_congr_right fun hx => ?_
  obtain ⟨u, -, hu⟩ := exists_within_of_mem_found h hx
  have hkind := Catalog.kind_of_findable hc (Reach.findable_of_entry hc hu)
  exact reports_iff ha (Reach.tight_of_entry hc hu) hkind

def collected (policy : Policy) (g : Graph n) (token : Token) (cache : Cache n) (t : Fin n) :
    Except Failure (List Identifier) :=
  ((Collecting.run (policy.resolver g) (Walk.collect g policy.coverage t)).run ⟨token, [], cache⟩).1

lemma collected_eq_found (hlimit : 0 < policy.settings.maxConstraintDepth) (ht : token.NeverFires)
    (hk : cache.Faithful (policy.closest g)) (t : Fin n) :
    policy.collected g token cache t = policy.found g t := by
  obtain ⟨after, hrun, -⟩ := Collecting.run_yields (policy.resolver_yields g)
    (Walk.collect g policy.coverage t) ⟨token, [], cache⟩ ⟨ht, hk⟩
  rw [collected, hrun, found_eq_value hlimit]

theorem answer_type_eq_increasing (hc : policy.catalog = .ofList xs)
    (ha : policy.allowed = .ofList ys) (hlimit : 0 < policy.settings.maxConstraintDepth)
    (hi : ∀ s, none ∉ (g s).interfaces) (ht : token.NeverFires)
    (hk : cache.Faithful (policy.closest g)) (root : Fin n) :
    ∃ found zs, policy.collected g token cache root = .ok found ∧
      (policy.answer g cache (.type (some root) token)).1 = .ok (.entries zs) ∧
      zs.Pairwise (fun x y => x.id < y.id) ∧
      ∀ x, x ∈ zs ↔ x ∈ found ∧
        (x.deprecated = true → policy.settings.reportDeprecated = true) ∧ ∀ y ∈ ys, y.id ≠ x.id := by
  have hordered : policy.catalog.Ordered := hc ▸ Catalog.ordered_ofList xs
  obtain ⟨found, hvalue⟩ :=
    (Walk.orderly_collect hi policy.coverage root).value_eq_ok (policy.closest g)
  have hfound : policy.found g root = .ok found := (found_eq_value hlimit g root).trans hvalue
  have hcall : (Call.type (some root) token).token.NeverFires := ht
  have hanswer : (policy.answer g cache (.type (some root) token)).1 =
      .ok (.entries (policy.select found)) := by
    rw [(policy.answer_of_faithful g hk hcall).1, value, typeEntries, hfound]
    rfl
  exact ⟨found, policy.select found, (collected_eq_found hlimit ht hk root).trans hfound, hanswer,
    pairwise_id_select hordered hfound, fun x => mem_select_iff_of_allowed hordered ha hfound⟩

attribute [local instance] Graph.numeral

def boxed : Graph 4
  | 0 => { kind := .type, id := some (Text.ofString "T:A.Box"), typeKind := .classType,
           isGeneric := true, typeArguments := [some 2, some 3], interfaces := [some 1] }
  | 1 => { kind := .type, id := some (Text.ofString "T:A.Shape"), typeKind := .interface }
  | 2 => { kind := .type, id := some (Text.ofString "T:A.Old"), typeKind := .classType }
  | 3 => { kind := .type, id := some (Text.ofString "T:A.Bar"), typeKind := .struct }

def typeOfA (name : String) (deprecated : Bool) : Identifier :=
  ⟨.type, Text.ofString "A", [], Text.ofString name, deprecated⟩

def guarded : Policy where
  settings := { reportDeprecated := false }
  catalog := .ofList [typeOfA "Box" true, typeOfA "Shape" false, typeOfA "Old" true,
    typeOfA "Box" false, typeOfA "Bar" false]
  allowed := .ofList [typeOfA "Shape" true]

def boxedEntries : List Identifier :=
  [typeOfA "Box" false, typeOfA "Old" true, typeOfA "Bar" false, typeOfA "Shape" false]

def reportedEntries : List Identifier := [typeOfA "Bar" false, typeOfA "Box" false]

def primed : Cache 4 := (guarded.answer boxed {} (.type (some 0) .live)).2

theorem answer_type_boxed : guarded.collected boxed .live primed 0 = .ok boxedEntries ∧
    (guarded.answer boxed primed (.type (some 0) .live)).1 = .ok (.entries reportedEntries) := by
  have hcall : (Call.type (some (0 : Fin 4)) Token.live).token.NeverFires := Token.neverFires_live
  have hk : primed.Faithful (guarded.closest boxed) :=
    (guarded.answer_of_faithful boxed (Cache.faithful_empty _) hcall).2
  have hcollected : guarded.collected boxed .live primed 0 = .ok boxedEntries := by
    decide +kernel
  obtain ⟨found, zs, hfound, hanswer, hsorted, hmem⟩ := answer_type_eq_increasing rfl rfl
    (by decide) (by decide) Token.neverFires_live hk 0
  obtain rfl := Except.ok.inj (hcollected.symm.trans hfound)
  -- Sorting does not compute here, but there is only one increasing list with these members.
  have hzs : zs = reportedEntries := by
    have hincreasing : reportedEntries.Pairwise fun x y => x.id < y.id := by decide
    have hsubset : ∀ x ∈ reportedEntries, x ∈ boxedEntries := by decide
    have hreported : ∀ x ∈ boxedEntries,
        (x.deprecated = true → guarded.settings.reportDeprecated = true) ∧
          (∀ y ∈ [typeOfA "Shape" true], y.id ≠ x.id) ↔ x ∈ reportedEntries := by decide
    apply hsorted.eq_of_mem_iff hincreasing
    intro x
    rw [hmem]
    constructor
    · rintro ⟨hx, hpass⟩
      exact (hreported x hx).mp hpass
    · intro hx
      exact ⟨hsubset x hx, (hreported x (hsubset x hx)).mpr hx⟩
  exact ⟨hcollected, hzs ▸ hanswer⟩

end Policy

end Portability
