import Portability.Proofs.Outcome
import Portability.Settings

namespace Portability.Settings

inductive Key
  | incompatibleList | allowList | enableResultCache | checkInterfaces | reportDeprecated
  | maxConstraintDepth

namespace Key

def name : Key → String
  | incompatibleList => "incompatible_list_path"
  | allowList => "allow_list_path"
  | enableResultCache => "enable_result_cache"
  | checkInterfaces => "check_interfaces"
  | reportDeprecated => "report_deprecated"
  | maxConstraintDepth => "max_constraint_depth"

def Accepts : Key → Value → Prop
  | incompatibleList, v | allowList, v => ∃ s, v = .text s
  | enableResultCache, v | checkInterfaces, v | reportDeprecated, v => ∃ b, v = .bool b
  | maxConstraintDepth, v => ∃ i : Int, v = .int i ∧ 1 ≤ i ∧ i ≤ 1000

end Key

def get (settings : Settings) : Key → Value
  | .incompatibleList => .text settings.incompatibleList
  | .allowList => .text settings.allowList
  | .enableResultCache => .bool settings.enableResultCache
  | .checkInterfaces => .bool settings.checkInterfaces
  | .reportDeprecated => .bool settings.reportDeprecated
  | .maxConstraintDepth => .int settings.maxConstraintDepth

variable {settings : Settings} {key : Key} {value : Value} {name : String}

lemma assign?_of_accepts (h : key.Accepts value) (settings : Settings) : ∃ new,
    settings.assign? key.name value = some (.ok new) ∧ new.get key = value ∧
      ∀ other, other ≠ key → new.get other = settings.get other := by
  cases key with
  | incompatibleList | allowList | enableResultCache | checkInterfaces | reportDeprecated =>
    obtain ⟨a, rfl⟩ := h
    refine ⟨_, rfl, rfl, fun other hother => ?_⟩
    cases other <;> first | rfl | exact absurd rfl hother
  | maxConstraintDepth =>
    obtain ⟨i, rfl, hpos, hle⟩ := h
    have hdepth : depth? (.int i) = some i.toNat := if_pos ⟨by omega, hle⟩
    refine ⟨{ settings with maxConstraintDepth := i.toNat }, ?_, ?_, fun other hother => ?_⟩
    · simp only [Key.name, assign?, hdepth]
    · exact congrArg Value.int (Int.toNat_of_nonneg (by omega))
    · cases other <;> first | rfl | exact absurd rfl hother

lemma assign?_of_not_accepts (h : ¬key.Accepts value) (settings : Settings) :
    ∃ default, settings.assign? key.name value = some (.error default) := by
  cases key with
  | incompatibleList | allowList | enableResultCache | checkInterfaces | reportDeprecated =>
    cases value <;> first | exact ⟨_, rfl⟩ | exact absurd ⟨_, rfl⟩ h
  | maxConstraintDepth =>
    have hdepth : depth? value = none := by
      cases value with
      | int i =>
        refine if_neg fun hi => h ⟨i, rfl, ?_, hi.2⟩
        omega
      | _ => rfl
    refine ⟨"40", ?_⟩
    simp only [Key.name, assign?, hdepth]

lemma assign?_of_unknown (h : ∀ key : Key, name ≠ key.name) (settings : Settings) :
    settings.assign? name value = none := by
  rw [assign?]
  · exact h .incompatibleList
  · exact h .allowList
  · exact h .enableResultCache
  · exact h .checkInterfaces
  · exact h .reportDeprecated
  · exact h .maxConstraintDepth

def excess : Failure := .plain (.invalid (Value.excess ++ "; " ++ Value.excessAdvice))

def Chokes (entry : Value × Value) : Prop :=
  (∃ key : Key, entry.1 = .text key.name ∧ ¬key.Accepts entry.2 ∧ entry.2.isExcessive = true) ∨
    (∀ key : Key, entry.1 ≠ .text key.name) ∧ entry.1.isExcessive = true

variable {k : Value} {t : List Record}

lemma passOver_run (k : Value) (t : List Record) : ∃ r, (passOver k).run t =
    if k.isExcessive then (.error excess, t) else (.ok (), t ++ [r]) := by
  rw [passOver, shown]
  cases k.isExcessive with
  | true => exact ⟨report .warning "", rfl⟩
  | false => exact ⟨_, rfl⟩

lemma refuse_run (name : String) (value : Value) (default : String) (t : List Record) :
    ∃ r, (refuse name value default).run t =
      if value.isExcessive then (.error excess, t) else (.ok (), t ++ [r]) := by
  rw [refuse, shown]
  cases value.isExcessive with
  | true => exact ⟨report .warning "", rfl⟩
  | false => exact ⟨_, rfl⟩

lemma enter_of_accepts (h : key.Accepts value) (settings : Settings) (t : List Record) : ∃ new,
    (settings.enter (.text key.name) value).run t = (.ok new, t) ∧ new.get key = value ∧
      ∀ other, other ≠ key → new.get other = settings.get other := by
  obtain ⟨new, hnew, hget⟩ := assign?_of_accepts h settings
  refine ⟨new, ?_, hget⟩
  simp only [enter, hnew]
  rfl

lemma enter_of_not_accepts (h : ¬key.Accepts value) (settings : Settings) (t : List Record) : ∃ r,
    (settings.enter (.text key.name) value).run t =
      if value.isExcessive then (.error excess, t) else (.ok settings, t ++ [r]) := by
  obtain ⟨default, hdefault⟩ := assign?_of_not_accepts h settings
  obtain ⟨r, hr⟩ := refuse_run key.name value default t
  refine ⟨r, ?_⟩
  simp only [enter, hdefault]
  change (refuse key.name value default >>= fun _ => pure settings).run t = _
  rw [Run.run_bind, hr]
  cases value.isExcessive <;> rfl

lemma enter_of_unknown (h : ∀ key : Key, k ≠ .text key.name) (settings : Settings)
    (value : Value) (t : List Record) : ∃ r, (settings.enter k value).run t =
      if k.isExcessive then (.error excess, t) else (.ok settings, t ++ [r]) := by
  obtain ⟨r, hr⟩ := passOver_run k t
  refine ⟨r, ?_⟩
  have henter : settings.enter k value = passOver k >>= fun _ => pure settings := by
    cases k with
    | text name =>
      have hnone : settings.assign? name value = none :=
        assign?_of_unknown (fun key hkey => h key (congrArg _ hkey)) settings
      simp only [enter, hnone]
    | _ => rfl
  rw [henter, Run.run_bind, hr]
  cases k.isExcessive <;> rfl

def Distinct (entries : List (Value × Value)) : Prop :=
  entries.Pairwise fun a b => ∀ name, a.1 = .text name → b.1 ≠ .text name

variable {entries : List (Value × Value)} {entry : Value × Value} {next final : Settings}

def Takes (settings : Settings) (entries : List (Value × Value)) (final : Settings) : Prop :=
  ∀ key : Key,
    (∀ value, (.text key.name, value) ∈ entries → key.Accepts value → final.get key = value) ∧
    ((∀ value, (.text key.name, value) ∈ entries → ¬key.Accepts value) →
      final.get key = settings.get key)

lemma Key.name_injective : Function.Injective Key.name := by
  intro key other h
  cases key <;> cases other <;> first | rfl | simp [Key.name] at h

lemma Takes.cons (h : settings.Takes [entry] next) (hrest : next.Takes entries final)
    (hd : Distinct (entry :: entries)) : settings.Takes (entry :: entries) final := by
  intro key
  obtain ⟨hfirst, hkept⟩ := h key
  obtain ⟨hlater, hsame⟩ := hrest key
  refine ⟨fun value hmem hv => ?_, fun hnone => ?_⟩
  · obtain rfl | hmem := List.mem_cons.mp hmem
    -- No later entry has the key, so that its setting is left alone.
    · have hleft := hsame fun other hother => absurd rfl
        ((List.pairwise_cons.mp hd).1 _ hother key.name rfl)
      exact hleft.trans (hfirst value List.mem_cons_self hv)
    · exact hlater value hmem hv
  · rw [hsame fun value hmem => hnone value (List.mem_cons_of_mem _ hmem), hkept]
    intro value hmem
    exact hnone value (List.mem_singleton.mp hmem ▸ List.mem_cons_self)

lemma takes_self (h : ∀ (key : Key) value, entry = (.text key.name, value) → ¬key.Accepts value) :
    settings.Takes [entry] settings := by
  intro key
  refine ⟨fun value hmem hv => ?_, fun _ => rfl⟩
  exact absurd hv (h key value (List.mem_singleton.mp hmem).symm)

lemma takes_of_accepts (hv : key.Accepts value) (hnew : next.get key = value)
    (hother : ∀ other, other ≠ key → next.get other = settings.get other) :
    settings.Takes [(.text key.name, value)] next := by
  intro other
  by_cases hkey : other = key
  · subst hkey
    refine ⟨fun v hmem _ => ?_, fun hnone => ?_⟩
    · obtain rfl := congrArg Prod.snd (List.mem_singleton.mp hmem)
      exact hnew
    · exact absurd hv (hnone value List.mem_cons_self)
  · refine ⟨fun v hmem _ => absurd ?_ hkey, fun _ => hother other hkey⟩
    have hname := congrArg Prod.fst (List.mem_singleton.mp hmem)
    exact Key.name_injective (Value.text.inj hname)

lemma chokes_iff_of_known : Chokes (.text key.name, value) ↔
    ¬key.Accepts value ∧ value.isExcessive = true := by
  constructor
  · rintro (⟨other, hname, h⟩ | ⟨hk, -⟩)
    · exact Key.name_injective (Value.text.inj hname) ▸ h
    · exact absurd rfl (hk key)
  · exact fun h => .inl ⟨key, rfl, h⟩

lemma chokes_iff_of_unknown (hk : ∀ key : Key, k ≠ .text key.name) :
    Chokes (k, value) ↔ k.isExcessive = true := by
  constructor
  · rintro (⟨key, hkey, -⟩ | ⟨-, h⟩)
    · exact absurd hkey (hk key)
    · exact h
  · exact fun h => .inr ⟨hk, h⟩

lemma enter_cases (settings : Settings) (k value : Value) (t : List Record) :
    Chokes (k, value) ∧ (settings.enter k value).run t = (.error excess, t) ∨
      ¬Chokes (k, value) ∧ ∃ next u, (settings.enter k value).run t = (.ok next, u) ∧
        settings.Takes [(k, value)] next := by
  by_cases hk : ∃ key : Key, k = .text key.name
  · obtain ⟨key, rfl⟩ := hk
    rw [chokes_iff_of_known]
    by_cases hv : key.Accepts value
    · obtain ⟨next, hrun, hnew, hother⟩ := enter_of_accepts hv settings t
      exact .inr ⟨fun h => h.1 hv, next, t, hrun, takes_of_accepts hv hnew hother⟩
    · obtain ⟨r, hrun⟩ := enter_of_not_accepts hv settings t
      rw [hrun]
      cases hx : value.isExcessive with
      | true => exact .inl ⟨⟨hv, rfl⟩, rfl⟩
      | false =>
        refine .inr ⟨nofun, settings, t ++ [r], rfl, takes_self fun other v he => ?_⟩
        obtain ⟨hname, rfl⟩ := Prod.mk.inj he
        exact Key.name_injective (Value.text.inj hname) ▸ hv
  · rw [not_exists] at hk
    rw [chokes_iff_of_unknown hk]
    obtain ⟨r, hrun⟩ := enter_of_unknown hk settings value t
    rw [hrun]
    cases hx : k.isExcessive with
    | true => exact .inl ⟨rfl, rfl⟩
    | false =>
      refine .inr ⟨nofun, settings, t ++ [r], rfl, takes_self fun key v he => ?_⟩
      exact absurd (congrArg Prod.fst he) (hk key)

lemma enterAll_run (hd : Distinct entries) (settings : Settings) (t : List Record) :
    (∃ entry ∈ entries, Chokes entry) ∧ (∃ u, (settings.enterAll entries).run t = (.error excess, u)) ∨
      (∀ entry ∈ entries, ¬Chokes entry) ∧ ∃ final u,
        (settings.enterAll entries).run t = (.ok final, u) ∧ settings.Takes entries final := by
  induction entries generalizing settings t with
  | nil =>
    refine .inr ⟨List.forall_mem_nil _, settings, t, rfl, fun key => ⟨fun v hmem => ?_, fun _ => rfl⟩⟩
    cases hmem
  | cons entry entries ih =>
    obtain ⟨k, value⟩ := entry
    rw [enterAll]
    obtain ⟨hc, hrun⟩ | ⟨hc, next, u, hrun, htakes⟩ := enter_cases settings k value t
    · refine .inl ⟨⟨(k, value), List.mem_cons_self, hc⟩, t, ?_⟩
      rw [Run.run_bind, hrun]
    · rw [Run.run_bind, hrun]
      obtain ⟨⟨entry, hmem, he⟩, hfail⟩ | ⟨hfine, final, v, hend, hrest⟩ :=
        ih (List.pairwise_cons.mp hd).2 next u
      · exact .inl ⟨⟨entry, List.mem_cons_of_mem _ hmem, he⟩, hfail⟩
      · exact .inr ⟨List.forall_mem_cons.mpr ⟨hc, hfine⟩, final, v, hend, htakes.cons hrest hd⟩

lemma exists_ok_iff (hd : Distinct entries) (t : List Record) :
    (∃ settings, ((ofEntries entries).run t).1 = .ok settings) ↔ ∀ entry ∈ entries, ¬Chokes entry := by
  rw [ofEntries]
  obtain ⟨⟨entry, hmem, hc⟩, u, hrun⟩ | ⟨hfine, final, u, hrun, -⟩ := enterAll_run hd {} t
  · rw [hrun]
    exact iff_of_false nofun fun h => h entry hmem hc
  · rw [hrun]
    exact iff_of_true ⟨final, rfl⟩ hfine

lemma takes_of_ok (hd : Distinct entries) (h : ((ofEntries entries).run t).1 = .ok settings) :
    ({} : Settings).Takes entries settings := by
  rw [ofEntries] at h
  obtain ⟨-, u, hrun⟩ | ⟨-, final, u, hrun, htakes⟩ := enterAll_run hd {} t
  · rw [hrun] at h
    cases h
  · rw [hrun] at h
    exact Except.ok.inj h ▸ htakes

lemma Takes.depth (h : ({} : Settings).Takes entries final) :
    1 ≤ final.maxConstraintDepth ∧ final.maxConstraintDepth ≤ 1000 := by
  obtain ⟨htaken, hkept⟩ := h .maxConstraintDepth
  by_cases hv : ∃ value, (.text Key.maxConstraintDepth.name, value) ∈ entries ∧
      Key.maxConstraintDepth.Accepts value
  · obtain ⟨value, hmem, i, rfl, hpos, hle⟩ := hv
    have hdepth := Value.int.inj (htaken _ hmem ⟨i, rfl, hpos, hle⟩)
    omega
  · have hdepth := Value.int.inj (hkept fun value hmem hv' => hv ⟨value, hmem, hv'⟩)
    change (final.maxConstraintDepth : Int) = (40 : Nat) at hdepth
    omega

lemma Takes.get_eq {other : List (Value × Value)} {final' : Settings} {key : Key}
    (h : settings.Takes entries final) (h' : settings.Takes other final')
    (hsame : ∀ value, (.text key.name, value) ∈ other ↔ (.text key.name, value) ∈ entries) :
    final'.get key = final.get key := by
  by_cases hv : ∃ value, (.text key.name, value) ∈ entries ∧ key.Accepts value
  · obtain ⟨value, hmem, hv⟩ := hv
    exact ((h' key).1 value ((hsame value).mpr hmem) hv).trans ((h key).1 value hmem hv).symm
  · have hnone : ∀ value, (.text key.name, value) ∈ entries → ¬key.Accepts value :=
      fun value hmem hv' => hv ⟨value, hmem, hv'⟩
    rw [(h key).2 hnone, (h' key).2 fun value hmem => hnone value ((hsame value).mp hmem)]

end Portability.Settings
