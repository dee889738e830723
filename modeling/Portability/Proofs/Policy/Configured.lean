import Portability.Proofs.Policy.Inquiry
import Portability.Proofs.Settings.Entries
import Portability.Proofs.Walk.Failures

namespace Portability

variable {n : Nat} {g : Graph n} {policy : Policy} {settings : Settings}
variable {entries : List (Value × Value)}

def Interrupted (e : Failure) : Prop := e = Token.fired ∨ e = .plain .absentSymbol

lemma Probe.failsOnly_search {Query Answer : Type} {p : Failure → Prop} (catalog : Catalog)
    (probes : List Probe) : (search catalog probes : Routine Query Answer _ _).FailsOnly p := by
  induction probes with
  | nil => trivial
  | cons probe rest ih =>
    cases probe with
    | poll => exact ih
    | look kind id =>
      cases id with
      | none => exact ih
      | some id =>
        rw [search]
        split
        · exact ih
        · split
          · exact ih
          · cases catalog.lookup kind (Text.trim id) with
            | some x => trivial
            | none => exact ih

namespace Resolver

lemma ofReach_failsOnly (catalog : Catalog) (reach : Reach) (q : Option (Fin n)) :
    Run.FailsOnly Interrupted (ofReach g catalog reach q) := by
  refine Routine.run_failsOnly (.pollIn (.inl rfl)) (fun r => .modify _) (fun q => q.elim) ?_
  cases q with
  | none => trivial
  | some s => exact Probe.failsOnly_search catalog _

lemma cached_failsOnly {inner : Resolver n} (h : ∀ q, Run.FailsOnly Interrupted (inner q))
    (q : Option (Fin n)) : Run.FailsOnly Interrupted (cached g inner q) := by
  cases q with
  | none => exact .pure none
  | some v =>
    refine .get fun s => ?_
    cases s.cache.find? v with
    | some x => exact .bind (.modify _) fun _ => .pure _
    | none =>
      refine .bind (.modify _) fun _ => (h (some v)).bind fun x => ?_
      split
      · exact .bind (.modify _) fun _ => .pure _
      · exact .bind (.modify _) fun _ => .pure _

end Resolver

namespace Policy

lemma resolver_failsOnly (policy : Policy) (g : Graph n) (q : Option (Fin n)) :
    Run.FailsOnly Interrupted (policy.resolver g q) := by
  rw [resolver]
  split
  · exact Resolver.cached_failsOnly (Resolver.ofReach_failsOnly _ _) q
  · exact Resolver.ofReach_failsOnly _ _ q

lemma inquire_failsOnly (s : Option (Fin n)) : (policy.inquire g s).FailsOnly Interrupted := by
  cases s with
  | none => trivial
  | some t =>
    rw [inquire]
    split
    · trivial
    · exact fun x => trivial

lemma inquiry_failsOnly (h : 1 ≤ policy.settings.maxConstraintDepth) (call : Call n) :
    (policy.inquiry g call).FailsOnly Interrupted := by
  cases call with
  | symbol s token | verdict s => exact (inquire_failsOnly s).bind fun x => trivial
  | type s token =>
    cases s with
    | none => trivial
    | some t =>
      have hlimit : Walk.limit? policy.settings.maxConstraintDepth =
          .ok policy.settings.maxConstraintDepth := by
        rw [Walk.limit?, if_neg (by omega), Int.toNat_natCast]
      rw [inquiry, hlimit]
      exact Routine.FailsOnly.bind trivial fun limit =>
        ((Walk.failsOnly_collect t).mono fun e he => .inr he).bind fun found => trivial

lemma answer_failsOnly (h : 1 ≤ policy.settings.maxConstraintDepth) (g : Graph n) (cache : Cache n)
    (call : Call n) {e : Failure} (he : (policy.answer g cache call).1 = .error e) :
    Interrupted e := by
  have hcall : Run.FailsOnly Interrupted (policy.respond g call) := by
    rw [respond_eq_run]
    exact Routine.run_failsOnly (.pollIn (.inl rfl)) (fun e => .modify _)
      (policy.resolver_failsOnly g) (inquiry_failsOnly h call)
  exact hcall _ e he

end Policy

namespace Settings

/-- Settings are loaded from a document exactly if no message about an entry that is passed over is
too long. Each of them is then the value of its key if that is acceptable, and its default otherwise,
and depends on no other entry and not on the order. The depth is one that a walk accepts: under loaded
settings calls only fail where their token fires or a symbol is missing. -/
theorem ofEntries_takes (hd : Distinct entries) (t : List Record) :
    ((∃ settings, ((ofEntries entries).run t).1 = .ok settings) ↔
      ∀ entry ∈ entries, ¬Chokes entry) ∧
    ∀ settings, ((ofEntries entries).run t).1 = .ok settings →
      ({} : Settings).Takes entries settings ∧
      (∀ other, Distinct other → ∀ settings', ((ofEntries other).run t).1 = .ok settings' →
        ∀ key : Key, (∀ value, (.text key.name, value) ∈ other ↔ (.text key.name, value) ∈ entries) →
          settings'.get key = settings.get key) ∧
      ∀ n (g : Graph n) catalog allowed cache call e,
        (Policy.answer ⟨settings, catalog, allowed⟩ g cache call).1 = .error e →
          e = Token.fired ∨ e = .plain .absentSymbol := by
  refine ⟨exists_ok_iff hd t, fun settings hsettings => ?_⟩
  have htakes := takes_of_ok hd hsettings
  refine ⟨htakes, fun other hd' settings' h' key hsame => htakes.get_eq (takes_of_ok hd' h') hsame, ?_⟩
  intro n g catalog allowed cache call e he
  exact Policy.answer_failsOnly htakes.depth.1 g cache call he

def mixed : List (Value × Value) :=
  [(.text "max_constraint_depth", .bool true), (.text "verbose", .null),
    (.text "check_interfaces", .bool false), (.int 1, .int 2)]

theorem ofEntries_takes_mixed : ∃ settings, ((ofEntries mixed).run []).1 = .ok settings ∧
    settings.get .maxConstraintDepth = .int 40 ∧ settings.get .checkInterfaces = .bool false := by
  have hd : Distinct mixed := by simp [Distinct, mixed]
  obtain ⟨hok, htakes⟩ := ofEntries_takes hd []
  have hfine : ∀ entry ∈ mixed, ¬Chokes entry := by
    have hshort : ∀ entry ∈ mixed, entry.1.isExcessive = false ∧ entry.2.isExcessive = false := by
      decide +kernel
    rintro entry hmem (⟨key, -, -, hlong⟩ | ⟨-, hlong⟩)
    · simp [(hshort entry hmem).2] at hlong
    · simp [(hshort entry hmem).1] at hlong
  obtain ⟨settings, hsettings⟩ := hok.mpr hfine
  refine ⟨settings, hsettings, ?_, ?_⟩
  · refine ((htakes settings hsettings).1 .maxConstraintDepth).2 ?_
    simp [mixed, Key.name, Key.Accepts]
  · refine ((htakes settings hsettings).1 .checkInterfaces).1 _ ?_ ⟨false, rfl⟩
    simp [mixed, Key.name]

def boundless : List (Value × Value) :=
  [(.text "max_constraint_depth", .int (Int.ofNat (Nat.pow 10 Value.mostDigits)))]

theorem not_forall_ofEntries : ¬∀ entries, Distinct entries →
    ∃ settings, ((ofEntries entries).run []).1 = .ok settings := by
  intro h
  have hd : Distinct boundless := List.pairwise_singleton _ _
  refine (exists_ok_iff hd []).mp (h boundless hd) _ (List.mem_singleton_self _) (.inl ?_)
  refine ⟨.maxConstraintDepth, rfl, ?_, by decide +kernel⟩
  rintro ⟨i, hi, -, hle⟩
  rw [← Value.int.inj hi] at hle
  exact absurd hle (by decide +kernel)

end Settings

end Portability
