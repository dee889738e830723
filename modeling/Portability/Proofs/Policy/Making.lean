import Portability.Policy.Workshop
import Portability.Proofs.Unpolled

namespace Portability.Workshop

open Run

variable {v w : Workshop} {α : Type}

structure Beside (v w : Workshop) : Prop where
  files : v.files = w.files
  stores : v.stores = w.stores
  records : v.records = w.records
  token : w.token.NeverFires

lemma Beside.store (h : v.Beside w) (shelf : Shelf) : v.store shelf = w.store shelf := by
  cases shelf <;> simp only [Workshop.store, h.stores]

lemma Beside.putStore (h : v.Beside w) (shelf : Shelf) (store : Store) :
    (v.putStore shelf store).Beside (w.putStore shelf store) := by
  cases shelf
  · exact ⟨h.files, congrArg (fun stores => { stores with incompatible := store }) h.stores,
      h.records, h.token⟩
  · exact ⟨h.files, congrArg (fun stores => { stores with allowed := store }) h.stores, h.records,
      h.token⟩

lemma Beside.report (h : v.Beside w) (r : Record) : (v.report r).Beside (w.report r) :=
  ⟨h.files, h.stores, congrArg (· ++ [r]) h.records, h.token⟩

lemma read_run {token : Option Token} {r : Reading α} {x : Except Failure α}
    {session : Reading.Session}
    (h : Reading.perform w.files r ⟨token.getD w.token, [], []⟩ = (x, session)) :
    (read token r).run w = (x, { w with
      token := if token.isSome then w.token else session.token
      records := w.records ++ session.events.filterMap Reading.Event.record? }) := by
  rw [read, run_get_bind]
  simp only [h]
  cases x <;> rfl

lemma read_agree {r r' : Reading α} (h : r.unpolled = r'.unpolled) :
    Agree Beside (read (some .deaf) r) (read none r') := by
  intro v w hvw
  have hsession : Reading.Session.Beside ⟨.deaf, [], []⟩ ⟨w.token, [], []⟩ :=
    ⟨rfl, rfl, Token.neverFires_deaf, hvw.token⟩
  obtain ⟨x, s, t, hs, ht, hst⟩ := Reading.perform_agree w.files h hsession
  have hv : Reading.perform v.files r ⟨(some Token.deaf).getD v.token, [], []⟩ = (x, s) :=
    hvw.files ▸ hs
  refine ⟨x, _, _, read_run hv, read_run ht, hvw.files, hvw.stores, ?_, hst.right⟩
  rw [hvw.records, hst.events]

lemma reporting_agree {x y : Run Workshop α} (path : Option Path) (shelf : Shelf)
    (h : Agree Beside x y) : Agree Beside (reporting path shelf x) (reporting path shelf y) := by
  refine h.tryCatch fun failure => ?_
  dsimp only
  split
  · refine .bind (.modify fun v w hvw => ?_) fun _ => .throw failure
    rw [hvw.store]
    exact hvw.report _
  · exact .throw failure

lemma read_done (token : Token) (a : α) : read (some token) (.done a) = pure a := by
  refine ExceptT.ext (funext fun w => ?_)
  have hdone : (read (some token) (.done a)).run w = (.ok a, { w with records := w.records ++ [] }) :=
    read_run rfl
  rw [hdone, List.append_nil]
  rfl

lemma load_agree (path : Option Path) (shelf : Shelf) :
    Agree Beside (load path shelf) (loadAsync path shelf) := by
  refine reporting_agree path shelf (.get fun v w hvw => ?_)
  rw [hvw.store, hvw.files]
  cases path with
  | none =>
    refine (read_agree ?_).bind fun store => .bind (.modify fun v w hvw => hvw.putStore ..) fun _ =>
      .pure _
    exact ((w.store shelf).unpolled_getAsync none).symm
  | some path =>
    refine (Agree.lift _).bind fun source => .bind (read_agree ?_) fun entries => ?_
    · exact (source.unpolled_readAsync []).symm
    · rw [← read_done .deaf]
      exact read_agree (Catalog.unpolled_build _).symm

lemma make_agree (settings : Settings) :
    Agree Beside (make settings none none) (makeAsync settings) := by
  refine (load_agree _ _).bind fun catalog => (load_agree _ _).bind fun allowed => ?_
  exact .bind (.modify fun v w hvw => hvw.report _) fun _ => .pure _

theorem makeAsync_eq_make {token : Token} (ht : token.NeverFires) (settings : Settings)
    (w : Workshop) : ∃ result made madeBeside,
      (make settings none none).run w = (result, made) ∧
        (makeAsync settings).run { w with token } = (result, madeBeside) ∧
        madeBeside.stores = made.stores ∧ madeBeside.files = made.files ∧
        madeBeside.records = made.records := by
  obtain ⟨result, made, madeBeside, hmade, hbeside, h⟩ :=
    make_agree settings w { w with token } ⟨rfl, rfl, rfl, ht⟩
  exact ⟨result, made, madeBeside, hmade, hbeside, h.stores.symm, h.files.symm, h.records.symm⟩

def desk : Workshop where
  files := ⟨[], [(["list.txt"], .file "T-A-B\n".toUTF8)], []⟩

def deskSettings : Settings := { incompatibleList := "list.txt" }

theorem makeAsync_desk : ∃ policy made,
    (makeAsync deskSettings).run { desk with token := .live } = (.ok policy, made) ∧
      policy.catalog =
        .ofList [{ kind := .type, nameSpace := Text.ofString "A", name := Text.ofString "B" }] ∧
      made.stores = ⟨.incompatible, Store.allowed.built .empty⟩ := by
  obtain ⟨result, made, madeBeside, hmade, hbeside, hstores, -, -⟩ :=
    makeAsync_eq_make Token.neverFires_live deskSettings desk
  have hcatalog : ((make deskSettings none none).run desk).1.map Policy.catalog = .ok (.ofList
      [{ kind := .type, nameSpace := Text.ofString "A", name := Text.ofString "B" }]) := by
    decide +kernel
  have hkept : ((make deskSettings none none).run desk).2.stores =
      ⟨.incompatible, Store.allowed.built .empty⟩ := by
    decide +kernel
  rw [hmade] at hcatalog hkept
  cases result with
  | error e => cases hcatalog
  | ok policy => exact ⟨policy, madeBeside, hbeside, Except.ok.inj hcatalog, hstores.trans hkept⟩

end Portability.Workshop
