import Portability.Proofs.Containment
import Portability.Proofs.Identifier.Id
import Portability.Proofs.Source.Lines

namespace Portability

variable {es : List Identifier} {kind : Kind} {i : Text} {e x : Identifier}

lemma Catalog.lookup_ofList_some (h : (ofList es).lookup kind i = some x) :
    x ∈ es ∧ x.kind = kind ∧ x.id = i ∧
      (x.deprecated = true ↔ ∀ y ∈ es, y.kind = kind → y.id = i → y.deprecated = true) := by
  rw [lookup_ofList] at h
  obtain ⟨hmem, hd⟩ := mem_of_chosen h
  obtain ⟨hx, hkind, hid⟩ : x ∈ es ∧ x.kind = kind ∧ x.id = i := by simpa using hmem
  exact ⟨hx, hkind, hid, by simpa using hd⟩

lemma Catalog.exists_lookup_ofList (h : e ∈ es) :
    ∃ x, (ofList es).lookup e.kind e.id = some x := by
  rw [lookup_ofList]
  exact chosen_isSome (x := e) (by simpa using h)

section

variable {n : Nat} {g : Graph n} {s : Fin n} {catalog : Catalog}

def Graph.StandsFor (g : Graph n) (s t : Fin n) : Prop :=
  t = s ∨ (g s).genericDefinition = some t ∨ (g s).kind = .method ∧ (g s).reducedFrom = some t

lemma Graph.exists_of_mem_ids {id : Option Text} (h : id ∈ g.ids (g s).kind s) :
    ∃ t, g.StandsFor s t ∧ (g t).id = id := by
  rw [ids, List.mem_append, List.mem_append] at h
  obtain (h | h) | h := h
  · split at h
    · next hk =>
      obtain ⟨t, ht, hid⟩ := List.mem_map.mp h
      exact ⟨t, .inr (.inr ⟨hk, by simpa using ht⟩), hid⟩
    · simp at h
  · obtain ⟨t, ht, hid⟩ := List.mem_map.mp h
    exact ⟨t, .inr (.inl (by simpa using (List.mem_filter.mp ht).1)), hid⟩
  · exact ⟨s, .inl rfl, (List.mem_singleton.mp h).symm⟩

lemma Reach.exists_of_entry_direct (h : direct.entry g catalog (some s) = some x) :
    ∃ t id, g.StandsFor s t ∧ (g t).id = some id ∧
      catalog.lookup (g s).kind (Text.trim id) = some x := by
  obtain ⟨probe, hprobe, hhit⟩ := List.exists_of_findSome?_eq_some h
  rcases List.mem_cons.mp hprobe with rfl | hlook
  · cases hhit
  · obtain ⟨id, hid, rfl⟩ := List.mem_map.mp hlook
    obtain ⟨t, hstands, rfl⟩ := Graph.exists_of_mem_ids hid
    cases ht : (g t).id with
    | none =>
      rw [ht] at hhit
      cases hhit
    | some id =>
      rw [ht, Probe.hit] at hhit
      split at hhit
      · exact ⟨t, id, hstands, ht, hhit⟩
      · cases hhit

lemma Reach.entry_direct_alone {id : Text} (hid : (g s).id = some id)
    (hr : (g s).reducedFrom = none) (hg : (g s).genericDefinition = none)
    (hk : Kind.ofId (Text.trim id) = (g s).kind) :
    direct.entry g catalog (some s) = catalog.lookup (g s).kind (Text.trim id) := by
  have hids : g.ids (g s).kind s = [some id] := by simp [Graph.ids, hr, hg, hid]
  rw [entry, probes, Graph.directProbes, Graph.looks, hids]
  change [Probe.poll, Probe.look (g s).kind (some id)].findSome? (Probe.hit catalog) = _
  rw [List.findSome?_cons, List.findSome?_cons, Probe.hit, Probe.hit, if_pos hk]
  cases catalog.lookup (g s).kind (Text.trim id) <;> rfl

end

/-- For every list that is read as a text: each entry has a trimmed id of its kind, and a search for
a symbol of that kind and id finds an entry with them, which is deprecated only if all such entries
of the list are. What a search finds is an entry of the list with the kind of the symbol and an id
that stands for it, and no search fails. -/
theorem Reach.resolve_listed {files : Files} {content : Text} {name : String} {position : Position}
    {session : Reading.Session}
    (h : (Reading.perform files ((Source.text content name).read files position) session).1 =
      .ok (some es)) :
    (∀ e ∈ es, Kind.ofId e.id = e.kind ∧ Text.trim e.id = e.id ∧
      ∀ {n : Nat} (g : Graph n) (s : Fin n) (token : Token) (before after : Text),
        token.NeverFires → (∀ p ∈ before, Text.isBlank p = true) →
        (∀ p ∈ after, Text.isBlank p = true) → (g s).kind = e.kind →
        (g s).id = some (before ++ e.id ++ after) → (g s).reducedFrom = none →
        (g s).genericDefinition = none →
        ∃ x, direct.resolve g (.ofList es) token (some s) = .ok (some x) ∧ x.kind = e.kind ∧
          x.id = e.id ∧ (x.deprecated = true ↔
            ∀ y ∈ es, y.kind = e.kind → y.id = e.id → y.deprecated = true)) ∧
    ∀ {n : Nat} (g : Graph n) (s : Fin n) (token : Token), token.NeverFires →
      ∃ found, direct.resolve g (.ofList es) token (some s) = .ok found ∧
        ∀ x ∈ found, x ∈ es ∧ x.kind = (g s).kind ∧
          ∃ t, g.StandsFor s t ∧ (g t).id.map Text.trim = some x.id := by
  have hread : Reading.ReadAs (Text.lines content) es := by
    obtain ⟨t, hperform⟩ : ∃ t, Reading.perform files ((Source.text content name).read files position)
      session = (.ok (some es), t) := ⟨_, Prod.ext h rfl⟩
    rw [Source.read, Reading.perform_poll_eq_ok_iff] at hperform
    obtain ⟨xs, u, hlines, hend⟩ := Reading.perform_bind_eq_ok_iff.mp hperform.2
    cases hend
    exact Reading.readAs_of_perform hlines
  constructor
  · intro e he
    obtain ⟨line, -, hline⟩ := Reading.exists_read_of_mem hread he
    obtain ⟨hkind, htight⟩ := Identifier.ofId_id_of_read hline
    refine ⟨hkind, htight.trim_eq, ?_⟩
    intro n g s token before after ht hbefore hafter hk hid hr hg
    have htrim : Text.trim (before ++ e.id ++ after) = e.id := htight.trim_append hbefore hafter
    obtain ⟨x, hx⟩ := Catalog.exists_lookup_ofList he
    obtain ⟨-, hxkind, hxid, hd⟩ := Catalog.lookup_ofList_some hx
    have hentry : direct.entry g (.ofList es) (some s) = some x := by
      rw [entry_direct_alone hid hr hg (by rw [htrim, hkind, hk]), htrim, hk, hx]
    exact ⟨x, by rw [resolve_eq _ ht, hentry], hxkind, hxid, hd⟩
  · intro n g s token ht
    refine ⟨_, resolve_eq _ ht _, ?_⟩
    intro x hx
    obtain ⟨t, id, hstands, hid, hlookup⟩ := exists_of_entry_direct hx
    obtain ⟨hmem, hkind, hxid, -⟩ := Catalog.lookup_ofList_some hlookup
    exact ⟨hmem, hkind, t, hstands, by rw [hid, hxid]; rfl⟩

def superseded : Text := Text.ofString "T-A-Box O\n# since 2.0\nT-A-Box\n"

def supersededEntries : List Identifier :=
  [{ kind := .type, nameSpace := Text.ofString "A", name := Text.ofString "Box", deprecated := true },
    { kind := .type, nameSpace := Text.ofString "A", name := Text.ofString "Box" }]

def spacedBox : Graph 1
  | 0 => { kind := .type, id := some (Text.ofString " T:A.Box\t"), typeKind := .classType }

theorem Reach.resolve_listed_superseded :
    (Reading.perform ⟨[], [], []⟩ ((Source.text superseded "list").read ⟨[], [], []⟩ [])
        { token := .live }).1 = .ok (some supersededEntries) ∧
      ∃ x, direct.resolve spacedBox (.ofList supersededEntries) .live (some 0) = .ok (some x) ∧
        x.deprecated = false := by
  have hread : (Reading.perform ⟨[], [], []⟩
      ((Source.text superseded "list").read ⟨[], [], []⟩ []) { token := .live }).1 =
        .ok (some supersededEntries) := by decide
  obtain ⟨-, -, hfound⟩ := (resolve_listed hread).1 _ List.mem_cons_self
  obtain ⟨x, hx, -, -, hd⟩ := hfound spacedBox 0 .live [.char ' '] [.char '\t']
    Token.neverFires_live (by decide) (by decide) rfl (by decide) rfl rfl
  have hlive : ¬x.deprecated = true := by
    rw [hd]
    decide
  exact ⟨hread, x, hx, by simpa using hlive⟩

end Portability
