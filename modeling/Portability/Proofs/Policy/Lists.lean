import Portability.Proofs.Path
import Portability.Proofs.Policy.Making
import Portability.Proofs.Source.Exactness
import Portability.Proofs.Source.Notes

/-! Making a policy of configured lists, for each content that they can have. -/

namespace Portability

variable {path : Path} {content : ByteArray} {failure : Failure} {files : Files}

def Failure.isListRead (failure : Failure) : Bool := failure.problem matches .listRead ..

/-- How a list with the given content fails: its path can be taken for blank, or a line that the file
gives is malformed, or none is and what comes after them is no text. -/
inductive Spoiled (path : Path) (content : ByteArray) : Failure → Prop
  | blank (h : blankString path.display = true) :
    Spoiled path content (.plain (.invalid "file_path must not be blank"))
  | malformed {i : Nat} {cause : Identifier.Malformed} (hb : blankString path.display = false)
    (hi : Reading.FirstMalformed (deliver content).lines i cause) :
    Spoiled path content (Reading.malformed (Source.describe (.file path)) (i + 1) cause)
  | undecodable {fault : Utf8.Fault} (hb : blankString path.display = false)
    (h : (deliver content).fault? = some fault)
    (hi : ∀ i cause, ¬Reading.MalformedAt (deliver content).lines i cause) :
    Spoiled path content (.plain (.undecodable fault))

lemma spoiled_iff_of_blank (hb : blankString path.display = true) :
    Spoiled path content failure ↔
      failure = .plain (.invalid "file_path must not be blank") := by
  constructor
  · rintro (_ | ⟨hne, -⟩ | ⟨hne, -, -⟩)
    · rfl
    all_goals simp [hb] at hne
  · rintro rfl
    exact .blank hb

lemma spoiled_iff_of_not_blank (hb : blankString path.display = false) :
    Spoiled path content failure ↔
      Reading.delivered (Source.describe (.file path)) (deliver content) = .error failure := by
  rw [Reading.delivered]
  cases hread : Reading.readFrom 1 (deliver content).lines with
  | error e =>
    obtain ⟨number, cause⟩ := e
    obtain ⟨i, rfl, hfirst, -⟩ := Reading.firstMalformed_of_readFrom hread
    rw [Nat.add_comm]
    constructor
    · rintro (hblank | ⟨-, hfirst'⟩ | ⟨-, -, hnone⟩)
      · simp [hb] at hblank
      · obtain ⟨rfl, rfl⟩ := hfirst.eq hfirst'
        rfl
      · exact absurd hfirst.1 (hnone _ _)
    · rintro ⟨⟩
      exact .malformed hb hfirst
  | ok xs =>
    have hnone (i : Nat) (cause : Identifier.Malformed) :
        ¬Reading.MalformedAt (deliver content).lines i cause := by
      rintro ⟨text, htext, hskip, hbad⟩
      obtain ⟨x, hx⟩ := Reading.exists_read_of_readAs (Reading.readFrom_eq_ok_iff.mp hread)
        (List.mem_of_getElem? htext) hskip
      rw [hx] at hbad
      cases hbad
    cases hfault : (deliver content).fault? with
    | none =>
      refine iff_of_false ?_ (fun h => by cases h)
      rintro (hblank | ⟨-, hfirst⟩ | ⟨-, hsome, -⟩)
      · simp [hb] at hblank
      · exact hnone _ _ hfirst.1
      · simp [hfault] at hsome
    | some fault =>
      constructor
      · rintro (hblank | ⟨-, hfirst⟩ | ⟨-, hsome, -⟩)
        · simp [hb] at hblank
        · exact absurd hfirst.1 (hnone _ _)
        · rw [Option.some.inj (hfault.symm.trans hsome)]
      · rintro ⟨⟩
        exact .undecodable hb hfault hnone

namespace Workshop

open Run

variable {w : Workshop} {shelf : Shelf} {settings : Settings} {α : Type} {token : Token}

def errors (w : Workshop) : List Record := w.records.filter fun r => r.level = .error

lemma errors_report {r : Record} (h : r.level = .error) (w : Workshop) :
    (w.report r).errors = w.errors ++ [r] := by
  simp [errors, report, List.filter_append, h]

lemma errors_report_of_ne {r : Record} (h : r.level ≠ .error) (w : Workshop) :
    (w.report r).errors = w.errors := by
  simp [errors, report, List.filter_append, h]

lemma reporting_run (path : Option Path) (shelf : Shelf) (action : Run Workshop α) (w : Workshop) :
    (reporting path shelf action).run w =
      match action.run w with
      | (.ok a, v) => (.ok a, v)
      | (.error failure, v) => (.error failure,
          if failure.isListRead then v.report (unreadable path (v.store shelf) failure) else v) := by
  rw [reporting, run_tryCatch]
  rcases action.run w with ⟨failure | a, v⟩
  · dsimp only
    rw [Failure.isListRead]
    cases failure.problem <;> rfl
  · rfl

structure Quiet (shelf : Shelf) (w v : Workshop) : Prop where
  files : v.files = w.files
  errors : v.errors = w.errors
  store : ∀ other, other ≠ shelf → v.store other = w.store other

lemma read_quiet (token : Token) {r : Reading α} (hr : r.NotesOnly Reading.Event.Mild)
    (shelf : Shelf) (w : Workshop) : ∃ v, (read (some token) r).run w =
      ((Reading.perform w.files r { token }).1, v) ∧ w.Quiet shelf v ∧ v.stores = w.stores := by
  have hevents : ∀ e ∈ (Reading.perform w.files r { token }).2.events, e.Mild :=
    Reading.events_perform w.files hr (List.forall_mem_nil _)
  rcases hrun : Reading.perform w.files r { token } with ⟨x, session⟩
  rw [hrun] at hevents
  refine ⟨_, read_run hrun, ⟨rfl, ?_, fun other _ => ?_⟩, rfl⟩
  · rw [errors, errors, List.filter_append, List.append_right_eq_self, List.filter_eq_nil_iff]
    intro record hrecord
    obtain ⟨e, he, hsome⟩ := List.mem_filterMap.mp hrecord
    cases e with
    | consulted => cases hsome
    | record r =>
      obtain rfl := Option.some.inj hsome
      simpa [Reading.Event.Mild] using hevents _ he
  · cases other <;> rfl

def noted (path : Option Path) (store : Store) : Except Failure α → List Record
  | .error failure => if failure.isListRead then [unreadable path store failure] else []
  | .ok _ => []

structure Loaded (path : Option Path) (shelf : Shelf) (w : Workshop) (r : Except Failure α)
    (v : Workshop) : Prop where
  files : v.files = w.files
  errors : v.errors = w.errors ++ noted path (w.store shelf) r
  store : ∀ other, other ≠ shelf → v.store other = w.store other

lemma reporting_loaded {action : Run Workshop α} {r : Except Failure α} {v : Workshop}
    (path : Option Path) (h : action.run w = (r, v)) (hq : w.Quiet shelf v)
    (hs : ∀ failure, r = .error failure → v.stores = w.stores) :
    ∃ u, (reporting path shelf action).run w = (r, u) ∧ Loaded path shelf w r u := by
  rw [reporting_run, h]
  cases r with
  | ok a => exact ⟨v, rfl, hq.files, hq.errors.trans (List.append_nil _).symm, hq.store⟩
  | error failure =>
    have hstore : v.store shelf = w.store shelf := by
      cases shelf <;> simp only [store, hs failure rfl]
    refine ⟨_, rfl, ?_⟩
    cases hread : failure.isListRead with
    | false =>
      refine ⟨hq.files, ?_, hq.store⟩
      simp [noted, hread, hq.errors]
    | true =>
      refine ⟨hq.files, ?_, fun other hother => ?_⟩
      · rw [if_pos rfl, errors_report rfl, hq.errors, noted, if_pos hread, hstore]
      · rw [← hq.store other hother]
        cases other <;> rfl

def stock (w : Workshop) (shelf : Shelf) : Option Path → Except Failure Catalog
  | none => (Reading.perform w.files ((w.store shelf).get w.files none) { token := .deaf }).1.map
      fun store => store.catalog.getD .empty
  | some path => configured w.files path >>= fun source =>
    (Reading.perform w.files (source.read w.files []) { token := .deaf }).1.map
      fun entries => .ofList (entries.getD [])

lemma Quiet.putStore {v : Workshop} (h : w.Quiet shelf v) (store : Store) :
    w.Quiet shelf (v.putStore shelf store) := by
  cases shelf
  · refine ⟨h.files, h.errors, fun other hother => ?_⟩
    rw [← h.store other hother]
    cases other with
    | incompatible => exact absurd rfl hother
    | allowed => rfl
  · refine ⟨h.files, h.errors, fun other hother => ?_⟩
    rw [← h.store other hother]
    cases other with
    | incompatible => rfl
    | allowed => exact absurd rfl hother

lemma load_store_run (shelf : Shelf) (w : Workshop) : ∃ v,
    (load none shelf).run w = (w.stock shelf none, v) ∧
      Loaded none shelf w (w.stock shelf none) v := by
  have hnotes : ((w.store shelf).get w.files none).NotesOnly Reading.Event.Mild :=
    (w.store shelf).notesOnly_get none
  obtain ⟨v, hrun, hquiet, hstores⟩ := read_quiet .deaf hnotes shelf w
  rw [load, stock]
  rcases hstore : (Reading.perform w.files ((w.store shelf).get w.files none) { token := .deaf }).1
    with failure | store
  · refine reporting_loaded none (v := v) ?_ hquiet fun _ _ => hstores
    rw [run_get_bind]
    dsimp only
    rw [run_bind, hrun, hstore]
    rfl
  · refine reporting_loaded none (v := v.putStore shelf store) ?_ (hquiet.putStore store) nofun
    rw [run_get_bind]
    dsimp only
    rw [run_bind, hrun, hstore]
    rfl

lemma load_configured_run (path : Path) (shelf : Shelf) (w : Workshop) : ∃ v,
    (load (some path) shelf).run w = (w.stock shelf (some path), v) ∧
      Loaded (some path) shelf w (w.stock shelf (some path)) v := by
  rw [load]
  cases hconfigured : configured w.files path with
  | error failure =>
    rw [stock, hconfigured]
    refine reporting_loaded _ (v := w) ?_ ⟨rfl, rfl, fun _ _ => rfl⟩ fun _ _ => rfl
    rw [run_get_bind]
    simp only [hconfigured]
    rfl
  | ok source =>
    have hstock : w.stock shelf (some path) =
        (Reading.perform w.files (source.read w.files []) { token := .deaf }).1.map
          fun entries => .ofList (entries.getD []) := by
      rw [stock, hconfigured]
      rfl
    have hnotes : (source.read w.files []).NotesOnly Reading.Event.Mild :=
      (source.limited_read []).notes
    obtain ⟨v, hrun, hquiet, hstores⟩ := read_quiet .deaf hnotes shelf w
    refine reporting_loaded _ (v := v) ?_ hquiet fun _ _ => hstores
    rw [run_get_bind]
    simp only [hconfigured]
    change ((read (some .deaf) (source.read w.files []) >>= _).run w) = _
    rw [run_bind, hrun, hstock]
    cases (Reading.perform w.files (source.read w.files []) { token := .deaf }).1 <;> rfl

lemma load_run (path : Option Path) (shelf : Shelf) (w : Workshop) : ∃ v,
    (load path shelf).run w = (w.stock shelf path, v) ∧
      Loaded path shelf w (w.stock shelf path) v := by
  cases path with
  | none => exact load_store_run shelf w
  | some path => exact load_configured_run path shelf w

lemma configured_of_read (hp : path.Normal) (hb : blankString path.display = false)
    (hr : files.read path = .ok content) : configured files path = .ok (.file path) := by
  rw [configured, Source.ofPath, hb, if_neg Bool.false_ne_true, Path.ofString_display hp,
    Files.isFile_of_read hr]
  rfl

lemma stock_of_blank (hb : blankString path.display = true) :
    w.stock shelf (some path) = .error (.plain (.invalid "file_path must not be blank")) := by
  rw [stock, configured, Source.ofPath, if_pos hb]
  rfl

lemma stock_of_file (hp : path.Normal) (hb : blankString path.display = false)
    (hr : w.files.read path = .ok content) :
    w.stock shelf (some path) =
      (Reading.delivered (Source.describe (.file path)) (deliver content)).map .ofList := by
  have htakes := (Reading.takes_readFile (Files.isFile_of_read hr) hr
    (Reading.Session.after { token := .deaf } 1)).poll
  have hread := htakes.fst_of_passes (Token.neverFires_deaf.passes _)
  rw [stock, configured_of_read hp hb hr]
  change Except.map _ (Reading.perform w.files ((Source.file path).read w.files []) _).1 = _
  rw [Source.read, hread]
  cases Reading.delivered (Source.describe (.file path)) (deliver content) <;> rfl

lemma stock_eq_error_iff (hp : path.Normal) (hr : w.files.read path = .ok content) :
    w.stock shelf (some path) = .error failure ↔ Spoiled path content failure := by
  cases hb : blankString path.display with
  | true => rw [stock_of_blank hb, spoiled_iff_of_blank hb, Except.error.injEq, eq_comm]
  | false =>
    rw [stock_of_file hp hb hr, spoiled_iff_of_not_blank hb]
    cases Reading.delivered (Source.describe (.file path)) (deliver content) <;> simp [Except.map]

def listPath (settings : Settings) : Shelf → Option Path
  | .incompatible => settings.incompatiblePath
  | .allowed => settings.allowPath

lemma normal_of_listPath (h : listPath settings shelf = some path) : path.Normal := by
  obtain ⟨s, hs⟩ : ∃ s, Settings.path? s = some path := by
    cases shelf <;> exact ⟨_, h⟩
  rw [Settings.path?] at hs
  split at hs
  · cases hs
  · exact Option.some.inj hs ▸ Path.normal_ofString s

def Supplied (w : Workshop) (settings : Settings) (shelf : Shelf) : Prop :=
  match listPath settings shelf with
  | some path => ∃ content, w.files.read path = .ok content
  | none => ∃ catalog, w.stock shelf none = .ok catalog

def Spoils (w : Workshop) (settings : Settings) (shelf : Shelf) (failure : Failure) : Prop :=
  ∃ path content, listPath settings shelf = some path ∧ w.files.read path = .ok content ∧
    Spoiled path content failure

lemma stock_eq_error_iff_spoils (h : w.Supplied settings shelf) :
    w.stock shelf (listPath settings shelf) = .error failure ↔ w.Spoils settings shelf failure := by
  rw [Supplied] at h
  rw [Spoils]
  cases hpath : listPath settings shelf with
  | none =>
    rw [hpath] at h
    obtain ⟨catalog, hcatalog⟩ := h
    simp [hcatalog]
  | some path =>
    rw [hpath] at h
    obtain ⟨content, hcontent⟩ := h
    rw [stock_eq_error_iff (normal_of_listPath hpath) hcontent]
    simp [hcontent]

def FirstSpoils (w : Workshop) (settings : Settings) : Shelf → Failure → Prop
  | .incompatible, failure => w.Spoils settings .incompatible failure
  | .allowed, failure => w.Spoils settings .allowed failure ∧
      ∀ earlier, ¬w.Spoils settings .incompatible earlier

lemma stock_congr {v : Workshop} (hf : v.files = w.files) (hs : v.store shelf = w.store shelf)
    (path : Option Path) : v.stock shelf path = w.stock shelf path := by
  cases path <;> simp only [stock, hf, hs]

def product (w : Workshop) (settings : Settings) : Except Failure Policy :=
  (w.stock .incompatible (listPath settings .incompatible)).bind fun catalog =>
    (w.stock .allowed (listPath settings .allowed)).map fun allowed => ⟨settings, catalog, allowed⟩

def misreadings (w : Workshop) (settings : Settings) : List Record :=
  let note (shelf : Shelf) : Except Failure Catalog → List Record :=
    noted (listPath settings shelf) (w.store shelf)
  match w.stock .incompatible (listPath settings .incompatible) with
  | .error failure => note .incompatible (.error failure)
  | .ok _ => note .allowed (w.stock .allowed (listPath settings .allowed))

lemma make_run (settings : Settings) (w : Workshop) : ∃ v,
    (make settings none none).run w = (w.product settings, v) ∧
      v.errors = w.errors ++ w.misreadings settings := by
  have hmake : make settings none none = load (listPath settings .incompatible) .incompatible >>=
      fun catalog => load (listPath settings .allowed) .allowed >>= assemble settings catalog := rfl
  obtain ⟨v, hv, hfirst⟩ := load_run (listPath settings .incompatible) .incompatible w
  rw [hmake, run_bind, hv, product, misreadings]
  cases hstock : w.stock .incompatible (listPath settings .incompatible) with
  | error failure =>
    rw [hstock] at hfirst
    exact ⟨v, rfl, hfirst.errors⟩
  | ok catalog =>
    rw [hstock] at hfirst
    have hstore : v.store .allowed = w.store .allowed := hfirst.store .allowed nofun
    have herrors : v.errors = w.errors := hfirst.errors.trans (List.append_nil _)
    -- The first list has left the files and the store of the second one as they were.
    obtain ⟨u, hu, hsecond⟩ := load_run (listPath settings .allowed) .allowed v
    rw [stock_congr hfirst.files hstore] at hu hsecond
    have hend := hsecond.errors
    rw [herrors, hstore] at hend
    dsimp only
    rw [run_bind, hu]
    cases hstock : w.stock .allowed (listPath settings .allowed) with
    | error failure =>
      rw [hstock] at hend
      exact ⟨u, rfl, hend⟩
    | ok allowed =>
      rw [hstock] at hend
      refine ⟨u.report (ready ⟨settings, catalog, allowed⟩), rfl, ?_⟩
      rw [errors_report_of_ne (by simp [ready]), hend]

lemma exists_stock (hs : w.Supplied settings shelf)
    (h : ∀ failure, ¬w.Spoils settings shelf failure) :
    ∃ catalog, w.stock shelf (listPath settings shelf) = .ok catalog := by
  cases hstock : w.stock shelf (listPath settings shelf) with
  | ok catalog => exact ⟨catalog, rfl⟩
  | error failure => exact absurd ((stock_eq_error_iff_spoils hs).mp hstock) (h failure)

lemma product_of_firstSpoils (hs : ∀ shelf, w.Supplied settings shelf)
    (h : w.FirstSpoils settings shelf failure) : w.product settings = .error failure ∧
      w.misreadings settings =
        if failure.isListRead then [unreadable (listPath settings shelf) (w.store shelf) failure]
        else [] := by
  cases shelf with
  | incompatible =>
    have hstock := (stock_eq_error_iff_spoils (hs .incompatible)).mpr h
    rw [product, misreadings, hstock]
    exact ⟨rfl, rfl⟩
  | allowed =>
    obtain ⟨catalog, hfirst⟩ := exists_stock (hs .incompatible) h.2
    have hstock := (stock_eq_error_iff_spoils (hs .allowed)).mpr h.1
    rw [product, misreadings, hfirst, hstock]
    exact ⟨rfl, rfl⟩

lemma product_of_not_spoils (hs : ∀ shelf, w.Supplied settings shelf)
    (h : ∀ shelf failure, ¬w.Spoils settings shelf failure) :
    (∃ policy, w.product settings = .ok policy) ∧ w.misreadings settings = [] := by
  obtain ⟨catalog, hfirst⟩ := exists_stock (hs .incompatible) (h .incompatible)
  obtain ⟨allowed, hsecond⟩ := exists_stock (hs .allowed) (h .allowed)
  rw [product, misreadings, hfirst, hsecond]
  exact ⟨⟨_, rfl⟩, rfl⟩

/-- Making a policy of lists that are there, at once or beside other work, fails exactly if the
content of a configured list fails it. The failure is that of the first such list. An error that
names the list is put on record if and only if it is that of a reading. -/
theorem make_configured {token : Token} (ht : token.NeverFires)
    (hs : ∀ shelf, w.Supplied settings shelf) :
    ∃ result made madeBeside, (make settings none none).run w = (result, made) ∧
      (makeAsync settings).run { w with token } = (result, madeBeside) ∧
      madeBeside.errors = made.errors ∧
      (∀ shelf failure, w.FirstSpoils settings shelf failure → result = .error failure ∧
        made.errors = w.errors ++ if failure.isListRead then
          [unreadable (listPath settings shelf) (w.store shelf) failure] else []) ∧
      ((∀ shelf failure, ¬w.Spoils settings shelf failure) →
        (∃ policy, result = .ok policy) ∧ made.errors = w.errors) := by
  obtain ⟨v, hmake, herrors⟩ := make_run settings w
  obtain ⟨result, made, madeBeside, hmade, hbeside, hsame⟩ :=
    make_agree settings w { w with token } ⟨rfl, rfl, rfl, ht⟩
  rw [hmake] at hmade
  obtain ⟨rfl, rfl⟩ := Prod.mk.inj hmade
  have hrecords : madeBeside.errors = v.errors := by rw [errors, errors, hsame.records]
  refine ⟨_, v, madeBeside, hmake, hbeside, hrecords, fun shelf failure h => ?_, fun h => ?_⟩
  · obtain ⟨hproduct, hmisread⟩ := product_of_firstSpoils hs h
    exact ⟨hproduct, hmisread ▸ herrors⟩
  · obtain ⟨hproduct, hmisread⟩ := product_of_not_spoils hs h
    refine ⟨hproduct, ?_⟩
    rw [herrors, hmisread, List.append_nil]

def deskOf (content : ByteArray) : Workshop := { desk with
  files := ⟨[], [(["list.txt"], .file content)], []⟩ }

def slipped : ByteArray := ⟨#[0x4e, 0x2d, 0x41, 0x0a, 0x51, 0x2d, 0x42, 0x0a, 0xe2]⟩

def blotted : ByteArray := ⟨#[0x4e, 0x2d, 0x41, 0x0a, 0xff, 0x0a]⟩

def listFile : Path := ⟨.relative, ["list.txt"]⟩

lemma supplied_deskOf {content : ByteArray}
    (hr : (deskOf content).files.read listFile = .ok content)
    (hs : ((deskOf content).stock .allowed none).isOk = true) (shelf : Shelf) :
    (deskOf content).Supplied deskSettings shelf := by
  cases shelf with
  | incompatible => exact ⟨content, hr⟩
  | allowed =>
    change ∃ catalog, (deskOf content).stock .allowed none = .ok catalog
    cases hstock : (deskOf content).stock .allowed none with
    | ok catalog => exact ⟨catalog, rfl⟩
    | error failure =>
      rw [hstock] at hs
      cases hs

theorem make_slipped :
    let failure := Reading.malformed (Source.describe (.file listFile)) 2
      ⟨Text.ofString "Q-B", .unknownTag (.char 'Q')⟩
    ∃ made, (makeAsync deskSettings).run { deskOf slipped with token := .live } =
      (.error failure, made) ∧ made.errors = [unreadable (some listFile) .incompatible failure] := by
  intro failure
  have hr : (deskOf slipped).files.read listFile = .ok slipped := by decide
  have hs := supplied_deskOf hr (by decide +kernel)
  obtain ⟨result, made, madeBeside, -, hbeside, herrors, hspoils, -⟩ :=
    make_configured Token.neverFires_live hs
  have hfirst : Reading.FirstMalformed (deliver slipped).lines 1
      ⟨Text.ofString "Q-B", .unknownTag (.char 'Q')⟩ := by
    have hread : Reading.readFrom 1 (deliver slipped).lines =
        .error (1 + 1, ⟨Text.ofString "Q-B", .unknownTag (.char 'Q')⟩) := by decide
    exact Reading.readFrom_eq_error_iff.mp hread
  have hspoiled : (deskOf slipped).Spoils deskSettings .incompatible failure :=
    ⟨listFile, slipped, rfl, hr, .malformed (by decide) hfirst⟩
  obtain ⟨rfl, hmade⟩ := hspoils .incompatible failure hspoiled
  exact ⟨madeBeside, hbeside, herrors.trans hmade⟩

theorem not_make_listRead : ¬∀ (settings : Settings) (w : Workshop),
    (∀ shelf, w.Supplied settings shelf) → ∀ failure,
      ((make settings none none).run w).1 = .error failure →
        failure.isListRead = true ∨ ∃ message, failure.problem = .configuration message := by
  intro h
  have hs : ∀ shelf, (deskOf blotted).Supplied deskSettings shelf :=
    supplied_deskOf (by decide) (by decide +kernel)
  have hresult : ((make deskSettings none none).run (deskOf blotted)).1.map Policy.catalog =
      .error (.plain (.undecodable ⟨4, 5, 0xff, .start, some 4⟩)) := by
    decide
  cases hmade : ((make deskSettings none none).run (deskOf blotted)).1 with
  | ok policy =>
    rw [hmade] at hresult
    cases hresult
  | error failure =>
    rw [hmade] at hresult
    obtain rfl := Except.error.inj hresult
    obtain hread | ⟨message, hmessage⟩ := h _ _ hs _ hmade
    · cases hread
    · cases hmessage

end Workshop

end Portability
