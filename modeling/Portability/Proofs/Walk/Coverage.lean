import Mathlib.Data.Finset.Card
import Portability.Proofs.Walk.Questions

/-! Walks of well-formed graphs ask for every type behind their root, unless it is idle. -/

namespace Portability

variable {n : Nat}

def Graph.Contributes (g : Graph n) (interfaces : Bool)
    (answer : Option (Fin n) → Option Identifier) (s : Fin n) : Prop :=
  (answer (some s)).isSome = true ∨ (g s).isGeneric = true ∧ ∃ a u,
    some a ∈ (g s).typeArguments ∧ g.PullsIn interfaces a u ∧ (g u).IsOrdinary ∧
      (answer (some u)).isSome = true

namespace Walk

variable {g : Graph n} {coverage : Coverage} {answer : Option (Fin n) → Option Identifier}
variable {climbs idle excused : Fin n → Prop} {root s t u : Fin n} {w between after : Walk n}
variable {qs qs' : List (Option (Fin n))} {visited : List (Fin n)}

lemma seen_iff (hid : g.ByIdentity) : seen g w s = true ↔ s ∈ w.visited := by
  rw [seen, List.any_eq_true]
  constructor
  · rintro ⟨t, ht, heq⟩
    rwa [hid s t heq]
  · intro hs
    exact ⟨s, hs, by simp [Graph.equal]⟩

structure Covers (g : Graph n) (coverage : Coverage) (climbs excused : Fin n → Prop)
    (w after : Walk n) (qs : List (Option (Fin n))) : Prop where
  visited : w.visited ⊆ after.visited
  asked : ∀ s ∈ after.visited, s ∉ w.visited → (g s).IsOrdinary → some s ∈ qs
  pulled : ∀ s ∈ after.visited, s ∉ w.visited → ∀ t, g.Pulls coverage.interfaces climbs s t →
    t ∈ after.visited ∨ excused t

lemma Covers.refl : Covers g coverage climbs excused w w [] where
  visited := List.Subset.refl _
  asked _ hs hn := absurd hs hn
  pulled _ hs hn := absurd hs hn

lemma Covers.trans (h : Covers g coverage climbs excused w between qs)
    (h' : Covers g coverage climbs excused between after qs') :
    Covers g coverage climbs excused w after (qs ++ qs') where
  visited := List.Subset.trans h.visited h'.visited
  asked s hs hn ho := by
    by_cases hb : s ∈ between.visited
    · exact List.mem_append_left _ (h.asked s hb hn ho)
    · exact List.mem_append_right _ (h'.asked s hs hb ho)
  pulled s hs hn t ht := by
    by_cases hb : s ∈ between.visited
    · exact (h.pulled s hb hn t ht).imp_left fun h => h'.visited h
    · exact h'.pulled s hs hb t ht

lemma Covers.settle {excused' : Fin n → Prop} (h : Covers g coverage climbs excused w after qs)
    (he : ∀ t, excused t → t ∈ after.visited ∨ excused' t) :
    Covers g coverage climbs excused' w after qs where
  visited := h.visited
  asked := h.asked
  pulled s hs hn t ht := (h.pulled s hs hn t ht).elim Or.inl (he t)

lemma Covers.mark {found : List Identifier}
    (h : Covers g coverage climbs excused ⟨s :: w.visited, found⟩ after qs)
    (hasked : (g s).IsOrdinary → some s ∈ qs)
    (hpulled : ∀ t, g.Pulls coverage.interfaces climbs s t → t ∈ after.visited ∨ excused t) :
    Covers g coverage climbs excused w after qs where
  visited := fun t ht => h.visited (List.mem_cons_of_mem _ ht)
  asked t ht hn ho := by
    by_cases hts : t = s
    · exact hts ▸ hasked (hts ▸ ho)
    · exact h.asked t ht (by simp [hts, hn]) ho
  pulled t ht hn u hu := by
    by_cases hts : t = s
    · exact hpulled u (hts ▸ hu)
    · exact h.pulled t ht (by simp [hts, hn]) u hu

structure Ready (g : Graph n) (coverage : Coverage) (root : Fin n) (room : Nat)
    (around : List (Fin n)) (s : Fin n) (visited : List (Fin n)) : Prop where
  room : n ≤ room + visited.toFinset.card
  behind : g.PullsIn coverage.interfaces root s
  nested : g.Nested coverage.interfaces root around
  around : ∀ p ∈ around, p ∈ visited ∧ g.PullsIn coverage.interfaces p s

section Ready

variable {room : Nat} {around : List (Fin n)}

lemma card_toFinset_cons (hs : s ∉ visited) :
    (s :: visited).toFinset.card = visited.toFinset.card + 1 := by
  rw [List.toFinset_cons, Finset.card_insert_of_notMem (by simpa using hs)]

lemma card_toFinset_mono {visited' : List (Fin n)} (h : visited ⊆ visited') :
    visited.toFinset.card ≤ visited'.toFinset.card :=
  Finset.card_le_card fun _ ht => List.mem_toFinset.mpr (h (List.mem_toFinset.mp ht))

lemma Ready.pull (h : Ready g coverage root room around s visited)
    (ht : g.PullsIn coverage.interfaces s t) {visited' : List (Fin n)} (hv : visited ⊆ visited') :
    Ready g coverage root room around t visited' where
  room := h.room.trans (Nat.add_le_add_left (card_toFinset_mono hv) _)
  behind := h.behind.trans ht
  nested := h.nested
  around p hp := ⟨hv (h.around p hp).1, (h.around p hp).2.trans ht⟩

lemma Ready.mark (h : Ready g coverage root (room + 1) around s visited) (hs : s ∉ visited) :
    Ready g coverage root room around s (s :: visited) where
  room := by
    have hroom := h.room
    rw [card_toFinset_cons hs]
    omega
  behind := h.behind
  nested := h.nested
  around p hp := ⟨List.mem_cons_of_mem _ (h.around p hp).1, (h.around p hp).2⟩

lemma Ready.nested_cons (h : Ready g coverage root room around s visited) (hs : s ∉ visited)
    (hp : (g s).isTypeParameter = true) : g.Nested coverage.interfaces root (s :: around) where
  nodup := List.nodup_cons.mpr ⟨fun hmem => hs (h.around s hmem).1, h.nested.nodup⟩
  parameter := List.forall_mem_cons.mpr ⟨hp, h.nested.parameter⟩
  behind := List.forall_mem_cons.mpr ⟨h.behind, h.nested.behind⟩
  pulls := List.pairwise_cons.mpr ⟨fun p hmem => (h.around p hmem).2, h.nested.pulls⟩

lemma Ready.enter (h : Ready g coverage root (room + 1) around s visited) (hs : s ∉ visited)
    (hp : (g s).isTypeParameter = true) (ht : some t ∈ (g s).constraints)
    {visited' : List (Fin n)} (hv : s :: visited ⊆ visited') :
    Ready g coverage root room (s :: around) t visited' := by
  have hst : g.PullsIn coverage.interfaces s t := .single (.constraint hp ht)
  have hmarked := (h.mark hs).pull hst hv
  refine ⟨hmarked.room, hmarked.behind, h.nested_cons hs hp, ?_⟩
  exact List.forall_mem_cons.mpr ⟨⟨hv List.mem_cons_self, hst⟩, hmarked.around⟩

end Ready

/-- The conditions under which a walk covers what it is meant to: type parameters do not nest beyond
the limit, and special types, as well as what is above a base type that has brought the walk to a
stop, are idle. -/
structure Steady (g : Graph n) (coverage : Coverage)
    (answer : Option (Fin n) → Option Identifier) (climbs idle : Fin n → Prop) (root : Fin n) :
    Prop where
  identity : g.ByIdentity
  wellFormed : g.WellFormed
  limit : ∀ ps, g.Nested coverage.interfaces root ps → ps.length ≤ coverage.limit
  special : ∀ s, (g s).isTypeParameter = false → (g s).isSpecial = true → idle s
  stop : ∀ s b t, g.PullsIn coverage.interfaces root s → (g s).IsOrdinary → (g s).HasBases →
    (g s).baseType = some b → (g b).IsOrdinary → (g b).baseType = some t → climbs b →
    g.Contributes coverage.interfaces answer b → idle t

structure Serves (g : Graph n) (coverage : Coverage)
    (answer : Option (Fin n) → Option Identifier) (climbs idle : Fin n → Prop)
    (arguments : List (Option (Fin n)) → Walk n → Collecting n (Walk n)) (s : Fin n)
    (visited : List (Fin n)) : Prop where
  covers : ∀ u w, g.PullsIn coverage.interfaces s u → (g u).IsOrdinary → (g u).isGeneric = true →
    visited ⊆ w.visited →
    (arguments (g u).typeArguments w).Attains answer fun after qs =>
      Covers g coverage climbs idle w after qs ∧
        ∀ t, some t ∈ (g u).typeArguments → t ∈ after.visited ∨ idle t
  grows : ∀ u w, (g u).IsOrdinary → (ofType g arguments (some u) w).Ends answer fun after _ =>
    after.found.length ≠ w.found.length → g.Contributes coverage.interfaces answer u

structure Takes (g : Graph n) (coverage : Coverage)
    (answer : Option (Fin n) → Option Identifier) (climbs idle : Fin n → Prop) (u : Fin n)
    (w after : Walk n) (qs : List (Option (Fin n))) : Prop where
  covers : Covers g coverage climbs idle w after qs
  asked : some u ∈ qs
  arguments : (g u).isGeneric = true → ∀ t, some t ∈ (g u).typeArguments →
    t ∈ after.visited ∨ idle t
  grows : after.found.length ≠ w.found.length → g.Contributes coverage.interfaces answer u

lemma Takes.mark (h : Takes g coverage answer climbs idle u ⟨u :: w.visited, w.found⟩ between qs)
    (ho : (g u).IsOrdinary) (hidle : ∀ t, idle t → excused t)
    (hrest : Covers g coverage climbs excused between after qs')
    (hbase : ∀ t, (g u).HasBases → climbs u → (g u).baseType = some t →
      t ∈ after.visited ∨ excused t)
    (hinterface : ∀ t, coverage.interfaces = true → some t ∈ (g u).interfaces →
      t ∈ after.visited ∨ excused t) :
    Covers g coverage climbs excused w after (qs ++ qs') ∧ u ∈ after.visited := by
  have hbetween : Covers g coverage climbs excused ⟨u :: w.visited, w.found⟩ between qs :=
    h.covers.settle fun t ht => Or.inr (hidle t ht)
  have hall := hbetween.trans hrest
  refine ⟨hall.mark (fun _ => List.mem_append_left _ h.asked) fun t ht => ?_,
    hall.visited List.mem_cons_self⟩
  cases ht with
  | argument _ hg ht => exact (h.arguments hg t ht).imp (fun hmem => hrest.visited hmem) (hidle t)
  | base _ hb hc ht => exact hbase t hb hc ht
  | interface _ hi ht => exact hinterface t hi ht
  | constraint hp _ => exact absurd hp ho.not_parameter_eq_true

def Deferred (g : Graph n) (coverage : Coverage) (idle : Fin n → Prop) (s t : Fin n) : Prop :=
  idle t ∨ coverage.interfaces = true ∧ some t ∈ (g s).interfaces

lemma attains_mark {next : Walk n → Collecting n (Walk n)}
    {post : Walk n → List (Option (Fin n)) → Prop}
    (h : (next ⟨s :: w.visited, w.found⟩).Attains answer post) :
    (mark s w >>= next).Attains answer post := h

lemma attains_checkpoint {step : Collecting n (Walk n)}
    {post : Walk n → List (Option (Fin n)) → Prop} (h : step.Attains answer post) :
    (Routine.checkpoint >>= fun _ => step).Attains answer post := h

lemma ite_bind {p : Prop} [Decidable p] (a b : Collecting n (Walk n))
    (f : Walk n → Collecting n (Walk n)) :
    (if p then a >>= f else b >>= f) = (if p then a else b) >>= f := by
  split <;> rfl

section

variable {arguments : List (Option (Fin n)) → Walk n → Collecting n (Walk n)}

lemma ofBases_none (steps : Nat) : ofBases g arguments steps none w = .done w := by
  cases steps <;> rfl

variable (hs : Serves g coverage answer climbs idle arguments s visited)
include hs

lemma attains_ofType (hu : g.PullsIn coverage.interfaces s u) (ho : (g u).IsOrdinary)
    (hv : visited ⊆ w.visited) : (ofType g arguments (some u) w).Attains answer
      (Takes g coverage answer climbs idle u w) := by
  have hcovers : (ofType g arguments (some u) w).Attains answer fun after qs =>
      Covers g coverage climbs idle w after qs ∧ some u ∈ qs ∧
        ((g u).isGeneric = true → ∀ t, some t ∈ (g u).typeArguments →
          t ∈ after.visited ∨ idle t) := by
    refine Routine.Attains.ask (Routine.Attains.poll ?_)
    change Routine.Attains answer (if (g u).isGeneric then _ else _) _
    split
    · next hg =>
      let found := w.found ++ (answer (some u)).toList
      refine (hs.covers u ⟨w.visited, found⟩ hu ho hg hv).mono fun after qs h => ?_
      have hasked (t : Fin n) (ht : t ∈ after.visited) (hn : t ∉ w.visited)
          (hto : (g t).IsOrdinary) : some t ∈ some u :: qs :=
        List.mem_cons_of_mem _ (h.1.asked t ht hn hto)
      exact ⟨⟨h.1.visited, hasked, h.1.pulled⟩, List.mem_cons_self, fun _ => h.2⟩
    · next hg =>
      refine Routine.Attains.done ⟨?_, List.mem_cons_self, fun h => absurd h hg⟩
      exact ⟨List.Subset.refl _, fun t ht hn => absurd ht hn, fun t ht hn => absurd ht hn⟩
  refine ((hs.grows u w ho).and_attains hcovers).mono fun after qs h => ?_
  exact ⟨h.2.1, h.2.2.1, h.2.2.2, h.1⟩

variable (hp : Steady g coverage answer climbs idle root)
include hp

lemma attains_ofBases (hroot : g.PullsIn coverage.interfaces root s) {steps : Nat}
    (hb : (g u).HasBases) (ho : (g u).IsOrdinary) (hu : g.PullsIn coverage.interfaces s u)
    (ht : (g u).baseType = some t) (hi : (g t).interfaces ⊆ (g s).interfaces)
    (hn : n ≤ steps + w.visited.toFinset.card) (hv : visited ⊆ w.visited) :
    (ofBases g arguments steps (some t) w).Attains answer fun after qs =>
      Covers g coverage climbs (Deferred g coverage idle s) w after qs ∧
        (t ∈ after.visited ∨ idle t) := by
  -- every step up marks a type, so room for those not visited yet is enough
  induction steps generalizing u t w with
  | zero => exact .done ⟨.refl, Or.inl (mem_of_le_card (by simpa using hn) t)⟩
  | succ steps ih =>
    refine Routine.Attains.poll ?_
    have hparameter := hp.wellFormed.base u t ho ht
    have htu : g.PullsIn coverage.interfaces s t := hu.tail (.base ho hb trivial ht)
    split
    · next hstop =>
      refine .done ⟨.refl, ?_⟩
      rcases (Bool.or_eq_true _ _).mp hstop with hseen | hspecial
      · exact Or.inl ((seen_iff hp.identity).mp hseen)
      · exact Or.inr (hp.special t hparameter hspecial)
    · next hgo =>
      simp only [Bool.or_eq_true, not_or, Bool.not_eq_true] at hgo
      have hto : (g t).IsOrdinary := ⟨hparameter, hgo.2⟩
      have hfresh : t ∉ w.visited := by
        rw [← seen_iff hp.identity, hgo.1]
        exact Bool.false_ne_true
      have hmarked : visited ⊆ t :: w.visited := fun v hv' => List.mem_cons_of_mem _ (hv hv')
      refine attains_mark ((attains_ofType hs htu hto hmarked).bind fun between qs htakes => ?_)
      -- the interfaces on the way up are left to the type from which the walk goes up
      have hmark {after : Walk n} {qs' : List (Option (Fin n))}
          (hrest : Covers g coverage climbs (Deferred g coverage idle s) between after qs')
          (hbase : ∀ v, climbs t → (g t).baseType = some v → v ∈ after.visited ∨ idle v) :
          Covers g coverage climbs (Deferred g coverage idle s) w after (qs ++ qs') ∧
            (t ∈ after.visited ∨ idle t) := by
        have hcovers := htakes.mark hto (fun _ => Or.inl) hrest
          (fun v _ hc hv => (hbase v hc hv).imp_right Or.inl)
          fun v hcov hmem => Or.inr (Or.inr ⟨hcov, hi hmem⟩)
        exact hcovers.imp_right Or.inl
      split
      · next hgrew =>
        refine .done (hmark .refl fun v hclimbs hbase => Or.inr ?_)
        exact hp.stop u t v (hroot.trans hu) ho hb ht hto hbase hclimbs (htakes.grows hgrew)
      · cases hbase : (g t).baseType with
        | none =>
          rw [ofBases_none]
          exact .done (hmark .refl fun v _ hv => by cases hbase.symm.trans hv)
        | some v =>
          have hcard := card_toFinset_mono htakes.covers.visited
          rw [card_toFinset_cons hfresh] at hcard
          have hup := ih (hp.wellFormed.base_class u t ho hb ht hgo.2) hto htu hbase
            (List.Subset.trans (hp.wellFormed.base_interfaces t v hto hbase) hi) (by omega)
            (List.Subset.trans hmarked htakes.covers.visited)
          refine hup.mono fun after qs' h => hmark h.1 fun v' _ hv' => ?_
          rw [← Option.some.inj (hbase.symm.trans hv')]
          exact h.2

lemma attains_ofInterfaces (hso : (g s).IsOrdinary) (hcov : coverage.interfaces = true)
    {ts : List (Option (Fin n))} (hts : ts ⊆ (g s).interfaces) (hv : visited ⊆ w.visited) :
    (ofInterfaces g arguments ts w).Attains answer fun after qs =>
      Covers g coverage climbs (Deferred g coverage idle s) w after qs ∧
        ∀ t, some t ∈ ts → t ∈ after.visited := by
  induction ts generalizing w with
  | nil => exact .done ⟨.refl, fun t ht => absurd ht List.not_mem_nil⟩
  | cons i rest ih =>
    obtain ⟨hi, hrest⟩ := List.cons_subset.mp hts
    obtain ⟨t, rfl, -, -⟩ := hp.wellFormed.interface s hso i hi
    obtain ⟨hto, hnb⟩ := hp.wellFormed.ordinary_of_mem_interfaces hso hi
    have hcons {after : Walk n} (ht : t ∈ after.visited)
        (hall : ∀ u, some u ∈ rest → u ∈ after.visited) (u : Fin n) (hu : some u ∈ some t :: rest) :
        u ∈ after.visited := by
      rcases List.mem_cons.mp hu with heq | hu
      · rw [Option.some.inj heq]
        exact ht
      · exact hall u hu
    rw [ofInterfaces]
    split
    · next hseen =>
      have ht := (seen_iff hp.identity).mp hseen
      exact (ih hrest hv).mono fun after qs h => ⟨h.1, hcons (h.1.visited ht) h.2⟩
    · have hmarked : visited ⊆ t :: w.visited := fun v hv' => List.mem_cons_of_mem _ (hv hv')
      have hst : g.PullsIn coverage.interfaces s t := .single (.interface hso hcov hi)
      refine attains_mark (attains_checkpoint ?_)
      refine (attains_ofType hs hst hto hmarked).bind fun between qs htakes => ?_
      have hnext := ih hrest (List.Subset.trans hmarked htakes.covers.visited)
      refine hnext.mono fun after qs' h => ?_
      have hmark := htakes.mark hto (fun _ => Or.inl) h.1 (fun v hb => absurd hb hnb)
        fun v _ hmem =>
          Or.inr (Or.inr ⟨hcov, hp.wellFormed.interface_interfaces s t hso hi hmem⟩)
      exact ⟨hmark.1, hcons hmark.2 h.2⟩

lemma attains_bases (hroot : g.PullsIn coverage.interfaces root s) (hso : (g s).IsOrdinary)
    (hv : visited ⊆ w.visited) :
    Routine.Attains answer (if (g s).typeKind = .classType && !(g s).isStatic then
        ofBases g arguments n (g s).baseType w else pure w) fun after qs =>
      Covers g coverage climbs (Deferred g coverage idle s) w after qs ∧
        ∀ t, (g s).HasBases → (g s).baseType = some t → t ∈ after.visited ∨ idle t := by
  split
  · next hb =>
    have hb : (g s).HasBases := by
      rw [Symbol.hasBases_iff]
      simpa using hb
    cases hbase : (g s).baseType with
    | none =>
      rw [ofBases_none]
      exact .done ⟨.refl, fun t _ ht => by cases ht⟩
    | some t =>
      refine (attains_ofBases hs hp hroot hb hso .refl hbase
        (hp.wellFormed.base_interfaces s t hso hbase) (Nat.le_add_right _ _) hv).mono ?_
      exact fun after qs h => ⟨h.1, fun u _ hu => Option.some.inj hu ▸ h.2⟩
  · next hb =>
    refine .done ⟨.refl, fun t hb' _ => absurd ?_ hb⟩
    simp [hb'.isClass, hb'.not_static]

lemma attains_interfaces (hso : (g s).IsOrdinary) (hv : visited ⊆ w.visited) :
    Routine.Attains answer (if coverage.interfaces then
        ofInterfaces g arguments (g s).interfaces w else return w) fun after qs =>
      Covers g coverage climbs (Deferred g coverage idle s) w after qs ∧
        ∀ t, coverage.interfaces = true → some t ∈ (g s).interfaces → t ∈ after.visited := by
  split
  · next hcov =>
    refine (attains_ofInterfaces hs hp hso hcov (List.Subset.refl _) hv).mono ?_
    exact fun after qs h => ⟨h.1, fun t _ => h.2 t⟩
  · next hcov => exact .done ⟨.refl, fun t h _ => absurd h hcov⟩

end

lemma attains_ofHierarchy {arguments : List (Option (Fin n)) → Walk n → Collecting n (Walk n)}
    (hp : Steady g coverage answer climbs idle root)
    (hroot : g.PullsIn coverage.interfaces root s) (hparameter : (g s).isTypeParameter = false)
    (hs : s ∉ w.visited → Serves g coverage answer climbs idle arguments s (s :: w.visited)) :
    (ofHierarchy g coverage arguments s w).Attains answer fun after qs =>
      Covers g coverage climbs idle w after qs ∧ s ∈ after.visited := by
  rw [ofHierarchy]
  split
  · next hseen => exact .done ⟨.refl, (seen_iff hp.identity).mp hseen⟩
  · next hunseen =>
    have hserves := hs fun hmem => hunseen ((seen_iff hp.identity).mpr hmem)
    refine attains_mark (attains_checkpoint ?_)
    split
    · next hspecial =>
      have hnot (ho : (g s).IsOrdinary) : False := ho.not_special_eq_true hspecial
      refine .done ⟨Covers.refl.mark (fun ho => (hnot ho).elim) fun t ht => ?_, List.mem_cons_self⟩
      exact (hnot (ht.ordinary hparameter)).elim
    · next hspecial =>
      have hso : (g s).IsOrdinary := ⟨hparameter, by simpa using hspecial⟩
      refine (attains_ofType hserves .refl hso (List.Subset.refl _)).bind fun own qs htakes => ?_
      have hown := htakes.covers.visited
      dsimp only
      rw [ite_bind]
      refine (attains_bases hserves hp hroot hso hown).bind fun below qs' hbelow => ?_
      refine attains_checkpoint ?_
      have hlast := attains_interfaces hserves hp hso (List.Subset.trans hown hbelow.1.visited)
      refine hlast.mono fun after qs'' h => ?_
      have hmark := htakes.mark hso (fun _ => Or.inl) (hbelow.1.trans h.1)
        (fun t hb _ ht => (hbelow.2 t hb ht).imp (fun hmem => h.1.visited hmem) Or.inl)
        fun t hcov ht => Or.inl (h.2 t hcov ht)
      exact hmark.imp_left fun hcovers => hcovers.settle fun t ht =>
        ht.elim Or.inr fun hi => Or.inl (h.2 t hi.1 hi.2)

structure Composes (relation : Walk n → Walk n → List (Option (Fin n)) → Prop) : Prop where
  refl : ∀ w, relation w w []
  trans : ∀ w between after qs qs', relation w between qs → relation between after qs' →
    relation w after (qs ++ qs')
  visited : ∀ w after qs, relation w after qs → w.visited ⊆ after.visited

lemma Covers.composes : Composes (Covers g coverage climbs excused) where
  refl _ := .refl
  trans _ _ _ _ _ := .trans
  visited _ _ _ := Covers.visited

lemma attains_ofEach {relation : Walk n → Walk n → List (Option (Fin n)) → Prop}
    (hr : Composes relation) {visit : Fin n → Walk n → Collecting n (Walk n)}
    {ts : List (Option (Fin n))}
    (hv : ∀ t, some t ∈ ts → ∀ w', w.visited ⊆ w'.visited → (visit t w').Attains answer
      fun after qs => relation w' after qs ∧ (t ∈ after.visited ∨ excused t)) :
    (ofEach visit ts w).Attains answer fun after qs =>
      relation w after qs ∧ ∀ t, some t ∈ ts → t ∈ after.visited ∨ excused t := by
  induction ts generalizing w with
  | nil => exact .done ⟨hr.refl w, fun t ht => absurd ht List.not_mem_nil⟩
  | cons t rest ih =>
    cases t with
    | none =>
      refine Routine.Attains.poll ((ih fun t ht => hv t (List.mem_cons_of_mem _ ht)).mono ?_)
      exact fun after qs h => ⟨h.1, fun t ht => h.2 t (by simpa using ht)⟩
    | some s =>
      refine Routine.Attains.poll ((hv s List.mem_cons_self w (List.Subset.refl _)).bind ?_)
      intro between qs hs
      have hrest := ih fun t ht w' hw' => hv t (List.mem_cons_of_mem _ ht) w'
        (List.Subset.trans (hr.visited _ _ _ hs.1) hw')
      refine hrest.mono fun after qs' h => ⟨hr.trans _ _ _ _ _ hs.1 h.1, fun t ht => ?_⟩
      rcases List.mem_cons.mp ht with heq | ht
      · rw [Option.some.inj heq]
        exact hs.2.imp_left fun hmem => hr.visited _ _ _ h.1 hmem
      · exact h.2 t ht

lemma asks_ofType_visit (hw : g.WellFormed) {room depth : Nat} :
    Asks answer (fun v => v = u ∨ (g u).isGeneric = true ∧ ∃ a, some a ∈ (g u).typeArguments ∧
      g.PullsIn coverage.interfaces a v ∧ (g v).IsOrdinary)
      (ofType g (ofEach (visit g coverage room depth)) (some u) w) := by
  have henc : g.Encloses coverage.interfaces answer _ _ _ :=
    hw.encloses (fun v => ∃ a, some a ∈ (g u).typeArguments ∧ g.PullsIn coverage.interfaces a v)
      (fun _ => True) (fun _ => True) (fun s t hs hst => hs.imp fun a ha => ⟨ha.1, ha.2.tail hst⟩)
      (fun _ _ _ _ => trivial) (fun _ _ => trivial) fun _ _ => trivial
  refine asks_ofType (Or.inl rfl) fun hg w => asks_ofEach fun a ha w => ?_
  refine (asks_visit henc ⟨⟨a, ha, .refl⟩, trivial⟩).mono fun v hv => Or.inr ⟨hg, ?_⟩
  exact hv.1.imp fun a' ha' => ⟨ha'.1, ha'.2, hv.2⟩

lemma grows_ofType_visit (hw : g.WellFormed) {room depth : Nat} :
    (ofType g (ofEach (visit g coverage room depth)) (some u) w).Ends answer fun after _ =>
      after.found.length ≠ w.found.length → g.Contributes coverage.interfaces answer u := by
  intro after hafter hgrew
  rw [(gathers_closed g).ofType ((gathers_closed g).ofEach ((gathers_closed g).visit coverage room depth)) u w after hafter]
    at hgrew
  have hfound : ((ofType g (ofEach (visit g coverage room depth)) (some u) w).asked
      answer).filterMap answer ≠ [] := by
    intro hnil
    simp [hnil] at hgrew
  obtain ⟨x, hx⟩ := List.exists_mem_of_ne_nil _ hfound
  obtain ⟨q, hq, hqx⟩ := List.mem_filterMap.mp hx
  obtain ⟨v, rfl, rfl | ⟨hgen, a, hmem, hav, hvo⟩⟩ := asks_ofType_visit hw after hafter q hq
  · exact Or.inl (by simp [hqx])
  · exact Or.inr ⟨hgen, a, v, hmem, hav, hvo, by simp [hqx]⟩

lemma attains_visit (hp : Steady g coverage answer climbs idle root) {room : Nat}
    {around : List (Fin n)} (hs : Ready g coverage root room around s w.visited) :
    (visit g coverage room around.length s w).Attains answer fun after qs =>
      Covers g coverage climbs idle w after qs ∧ (s ∈ after.visited ∨ idle s) := by
  -- the depth of a visit is the number of type parameters around it, which are nested and so
  -- within the limit as long as the next one is not visited
  induction room generalizing around s w with
  | zero => exact .done ⟨.refl, Or.inl (mem_of_le_card (by simpa using hs.room) s)⟩
  | succ room ih =>
    rw [visit]
    split
    · next hparameter =>
      rw [ofParameter]
      split
      · next hlimit =>
        by_cases hmem : s ∈ w.visited
        · exact Routine.Attains.note (.done ⟨.refl, Or.inl hmem⟩)
        · have hle := hp.limit _ (hs.nested_cons hmem hparameter)
          rw [List.length_cons] at hle
          omega
      · split
        · next hseen => exact .done ⟨.refl, Or.inl ((seen_iff hp.identity).mp hseen)⟩
        · next hunseen =>
          have hfresh : s ∉ w.visited := fun hmem => hunseen ((seen_iff hp.identity).mpr hmem)
          have heach := attains_ofEach Covers.composes (w := ⟨s :: w.visited, w.found⟩)
            fun t ht w' hw' => ih (hs.enter hfresh hparameter ht hw')
          refine attains_mark (heach.mono fun after qs h => ⟨?_, ?_⟩)
          · refine h.1.mark (fun ho => ?_) fun t ht => h.2 t (ht.mem_constraints hparameter)
            exact absurd hparameter ho.not_parameter_eq_true
          · exact Or.inl (h.1.visited List.mem_cons_self)
    · next hparameter =>
      have hnp := (Bool.not_eq_true _).mp hparameter
      refine (attains_ofHierarchy hp hs.behind hnp fun hfresh => ⟨?_, ?_⟩).mono
        fun after qs h => h.imp_right Or.inl
      · intro u w' hu ho hg hv
        refine attains_ofEach Covers.composes fun t ht w'' hw'' => ih ?_
        refine (hs.mark hfresh).pull (hu.tail (.argument ho hg ht)) ?_
        exact List.Subset.trans hv hw''
      · exact fun u w' _ => grows_ofType_visit hp.wellFormed

lemma attains_collect (hp : Steady g coverage answer climbs idle root)
    (hidle : ∀ s t, idle s → g.Pulls coverage.interfaces climbs s t → idle t) :
    (collect g coverage root).Attains answer fun found qs =>
      found = qs.filterMap answer ∧ ∀ s,
        Relation.ReflTransGen (g.Pulls coverage.interfaces climbs) root s → (g s).IsOrdinary →
          some s ∈ qs ∨ idle s := by
  have hready : Ready g coverage root (n + 1) [] root [] :=
    ⟨by omega, .refl, ⟨List.nodup_nil, by simp, by simp, List.Pairwise.nil⟩, by simp⟩
  obtain ⟨xs, hvalue, hall⟩ : (collect g coverage root).Attains answer fun _ qs => ∀ s,
      Relation.ReflTransGen (g.Pulls coverage.interfaces climbs) root s → (g s).IsOrdinary →
        some s ∈ qs ∨ idle s := by
    rw [collect_eq]
    refine (attains_visit (w := {}) hp hready).bind fun after qs h => .done ?_
    -- what is visited in the end is closed under pulling, apart from what is idle
    have hreach (s : Fin n)
        (hs : Relation.ReflTransGen (g.Pulls coverage.interfaces climbs) root s) :
        s ∈ after.visited ∨ idle s := by
      induction hs with
      | refl => exact h.2
      | tail _ hst ih =>
        rcases ih with hmem | hs
        · exact h.1.pulled _ hmem List.not_mem_nil _ hst
        · exact Or.inr (hidle _ _ hs hst)
    intro s hs ho
    rw [List.append_nil]
    exact (hreach s hs).imp_left fun hmem => h.1.asked s hmem List.not_mem_nil ho
  exact ⟨xs, hvalue, eq_filterMap_asked_of_collect hvalue, hall⟩

end Walk

end Portability
