import OneStep.Proofs.Allocation
import OneStep.Proofs.Layouts
import OneStep.Proofs.Printed

namespace OneStep

open SExpr

namespace Model

section

variable {f : String → String}

theorem map_eq_atom {e : SExpr} {s : String} (h : e.map f = .atom s) : ∃ a, e = .atom a ∧ f a = s := by
  cases e with
  | atom a =>
    cases h
    exact ⟨a, rfl, rfl⟩
  | list items => cases h

theorem map_eq_list {e : SExpr} {items' : List SExpr} (h : e.map f = .list items') :
    ∃ items, e = .list items ∧ items.map (SExpr.map f) = items' := by
  cases e with
  | atom a => cases h
  | list items =>
    rw [SExpr.map, mapItems_eq] at h
    cases h
    exact ⟨items, rfl, rfl⟩

end

theorem squeezed_eq_iff {s w : String} (hw : Text.Avoids Text.isBlank w) : squeezed s = w ↔ s = w := by
  constructor
  · intro h
    have hl : Text.squeeze [' '] false s.toList = w.toList := by rw [← h, squeezed, String.toList_ofList]
    exact String.toList_injective (Text.eq_of_squeeze_solid hw hl).2
  · rintro rfl
    rw [squeezed, Text.squeeze_of_solid hw, String.ofList_toList]

theorem map_eq_word_iff {e : SExpr} {w : String} (hw : Text.Avoids Text.isBlank w) :
    e.map squeezed = .atom w ↔ e = .atom w := by
  constructor
  · intro h
    obtain ⟨a, rfl, ha⟩ := map_eq_atom h
    rw [(squeezed_eq_iff hw).1 ha]
  · rintro rfl
    rw [SExpr.map, (squeezed_eq_iff hw).2 rfl]

theorem solid_define : Text.Avoids Text.isBlank "define-fun" := Text.avoids_of_all (by decide)

theorem solid_model : Text.Avoids Text.isBlank "model" := Text.avoids_of_all (by decide)

theorem nullary?_eq_some_iff {e value : SExpr} {s : String} : nullary? e = some (s, value) ↔
    ∃ sort, e = .list [.atom "define-fun", .atom s, .list [], sort, value] := by
  constructor
  · intro h
    unfold nullary? at h
    split at h
    · next sort value =>
      cases h
      exact ⟨sort, rfl⟩
    · cases h
  · rintro ⟨sort, rfl⟩
    simp [nullary?]

theorem isNameless_iff {e : SExpr} : isNameless e = true ↔
    ∃ name sort value, e = .list [.atom "define-fun", .list name, .list [], sort, value] := by
  constructor
  · intro h
    unfold isNameless at h
    split at h
    · exact ⟨_, _, _, rfl⟩
    · cases h
  · rintro ⟨name, sort, value, rfl⟩
    simp [isNameless]

theorem map_eq_definition {e name sort value : SExpr}
    (h : e.map squeezed = .list [.atom "define-fun", name, .list [], sort, value]) :
    ∃ name' sort' value', e = .list [.atom "define-fun", name', .list [], sort', value'] ∧
      name'.map squeezed = name ∧ value'.map squeezed = value := by
  obtain ⟨items, rfl, hi⟩ := map_eq_list h
  simp only [List.map_eq_cons_iff, List.map_eq_nil_iff] at hi
  obtain ⟨a, _, rfl, ha, name', _, rfl, hn, c, _, rfl, hc, sort', _, rfl, _, value', _, rfl, hv, rfl⟩ := hi
  obtain rfl := (map_eq_word_iff solid_define).1 ha
  obtain ⟨args, rfl, hargs⟩ := map_eq_list hc
  obtain rfl := List.map_eq_nil_iff.1 hargs
  exact ⟨name', sort', value', rfl, hn, hv⟩

theorem map_definition (name sort value : SExpr) :
    (SExpr.list [.atom "define-fun", name, .list [], sort, value]).map squeezed =
      .list [.atom "define-fun", name.map squeezed, .list [], sort.map squeezed, value.map squeezed] := by
  have hs : squeezed "define-fun" = "define-fun" := (squeezed_eq_iff solid_define).2 rfl
  simp [SExpr.map, mapItems, hs]

theorem nullary?_map (e : SExpr) :
    nullary? (e.map squeezed) = (nullary? e).map fun d => (squeezed d.1, d.2.map squeezed) := by
  refine Option.ext fun ⟨s, value⟩ => ?_
  rw [nullary?_eq_some_iff, Option.map_eq_some_iff]
  constructor
  · rintro ⟨sort, h⟩
    obtain ⟨name, sort', value', rfl, hn, rfl⟩ := map_eq_definition h
    obtain ⟨s', rfl, rfl⟩ := map_eq_atom hn
    exact ⟨(s', value'), nullary?_eq_some_iff.2 ⟨_, rfl⟩, rfl⟩
  · rintro ⟨⟨s', value'⟩, h, he⟩
    obtain ⟨sort, rfl⟩ := nullary?_eq_some_iff.1 h
    cases he
    exact ⟨_, map_definition ..⟩

theorem isNameless_map (e : SExpr) : isNameless (e.map squeezed) = isNameless e := by
  rw [Bool.eq_iff_iff, isNameless_iff, isNameless_iff]
  constructor
  · rintro ⟨name, sort, value, h⟩
    obtain ⟨name', sort', value', rfl, hn, _⟩ := map_eq_definition h
    obtain ⟨items, rfl, _⟩ := map_eq_list hn
    exact ⟨_, _, _, rfl⟩
  · rintro ⟨name, sort, value, rfl⟩
    exact ⟨_, _, _, (map_definition ..).trans (by rw [SExpr.map])⟩

theorem unnamed_map (items : List SExpr) :
    unnamed (items.map (SExpr.map squeezed)) = (unnamed items).map (SExpr.map squeezed) := by
  cases items with
  | nil => rfl
  | cons e items =>
    by_cases he : e = .atom "model"
    · subst he
      rw [List.map_cons, (map_eq_word_iff solid_model).2 rfl, unnamed, unnamed]
    · have hm : e.map squeezed ≠ .atom "model" := mt (map_eq_word_iff solid_model).1 he
      rw [unnamed_of_not_atom (by simp [hm]), unnamed_of_not_atom (by simp [he])]

theorem listed_map (items : List SExpr) :
    listed (items.map (SExpr.map squeezed)) = (listed items).map (SExpr.map squeezed) := by
  cases items with
  | nil => rfl
  | cons e items =>
    by_cases he : e = .atom "define-fun"
    · subst he
      rw [List.map_cons, (map_eq_word_iff solid_define).2 rfl, listed, listed, List.map_singleton, SExpr.map,
        mapItems_eq, List.map_cons, (map_eq_word_iff solid_define).2 rfl]
    · have hd : e.map squeezed ≠ .atom "define-fun" := mt (map_eq_word_iff solid_define).1 he
      rw [listed_of_not_atom (by simp [hd]), listed_of_not_atom (by simp [he])]

theorem entries_map (e : SExpr) : entries (e.map squeezed) = (entries e).map (SExpr.map squeezed) := by
  cases e with
  | atom s => rfl
  | list items => rw [SExpr.map, mapItems_eq, entries_eq, entries_eq, unnamed_map, listed_map]

theorem entries_congr {tops tops' : List SExpr} (h : tops.map (SExpr.map squeezed) = tops'.map (SExpr.map squeezed)) :
    (tops.flatMap entries).map (SExpr.map squeezed) = (tops'.flatMap entries).map (SExpr.map squeezed) := by
  have hmap : ∀ tops : List SExpr,
      (tops.flatMap entries).map (SExpr.map squeezed) = (tops.map (SExpr.map squeezed)).flatMap entries := by
    intro tops
    rw [List.map_flatMap, List.flatMap_map]
    exact congrArg (List.flatMap · tops) (funext fun e => (entries_map e).symm)
  rw [hmap, hmap, h]

def squeezedEntry (d : String × SExpr) : String × SExpr :=
  (squeezed d.1, d.2.map squeezed)

theorem filterMap_nullary?_map (es : List SExpr) :
    (es.map (SExpr.map squeezed)).filterMap nullary? = (es.filterMap nullary?).map squeezedEntry := by
  rw [List.filterMap_map, List.map_filterMap]
  exact congrArg (List.filterMap · es) (funext nullary?_map)

theorem named_of_eq {es es' : List SExpr} (h : es.map (SExpr.map squeezed) = es'.map (SExpr.map squeezed))
    (hn : ∀ e ∈ es, isNameless e = false) : ∀ e ∈ es', isNameless e = false := by
  intro e he
  have hm : e.map squeezed ∈ es.map (SExpr.map squeezed) := h ▸ List.mem_map_of_mem he
  obtain ⟨d, hd, hde⟩ := List.mem_map.1 hm
  rw [← isNameless_map, ← hde, isNameless_map]
  exact hn d hd

theorem solid_of_bareName {s : String} (h : Text.Avoids Text.isBlank (bareName s)) : Text.Avoids Text.isBlank s := by
  obtain ⟨x, y, he, hx, hy⟩ := Text.strip_split isBar s.toList
  have hbar : ∀ c, isBar c = true → Text.isBlank c = false := by
    intro c hc
    rw [beq_iff_eq.1 hc]
    decide
  intro c hc
  rw [he] at hc
  rcases List.mem_append.1 hc with hc | hc
  · exact hbar c (hx c hc)
  · rcases List.mem_append.1 hc with hc | hc
    · exact h c (by rwa [bareName, String.toList_ofList])
    · exact hbar c (hy c hc)

theorem bareName_squeezed {s name : String} (hn : Text.Avoids Text.isBlank name) :
    bareName (squeezed s) = name ↔ bareName s = name := by
  constructor
  · rintro rfl
    exact congrArg bareName ((squeezed_eq_iff (solid_of_bareName hn)).1 rfl)
  · rintro rfl
    exact congrArg bareName ((squeezed_eq_iff (solid_of_bareName hn)).2 rfl)

section

variable {name : String} {raw raw' : List (String × SExpr)}

theorem count_congr (hn : Text.Avoids Text.isBlank name) (h : raw'.map squeezedEntry = raw.map squeezedEntry) :
    ((raw'.map bareEntry).map (·.1)).count name = ((raw.map bareEntry).map (·.1)).count name := by
  have hmap : ∀ raw : List (String × SExpr),
      (((raw.map squeezedEntry).map bareEntry).map (·.1)).count name = ((raw.map bareEntry).map (·.1)).count name := by
    intro raw
    simp only [List.count, List.countP_map]
    refine List.countP_congr fun d _ => ?_
    simp only [Function.comp_apply, beq_iff_eq]
    exact bareName_squeezed hn
  rw [← hmap raw', ← hmap raw, h]

theorem mem_congr {value : SExpr} (hn : Text.Avoids Text.isBlank name)
    (h : raw'.map squeezedEntry = raw.map squeezedEntry) (hd : (name, value) ∈ raw.map bareEntry) :
    ∃ value', (name, value') ∈ raw'.map bareEntry ∧ value'.map squeezed = value.map squeezed := by
  obtain ⟨d, hm, he⟩ := List.mem_map.1 hd
  cases he
  have hs : squeezedEntry d ∈ raw'.map squeezedEntry := h ▸ List.mem_map_of_mem hm
  obtain ⟨d', hd', he⟩ := List.mem_map.1 hs
  have hb : bareName d'.1 = bareName d.1 := by
    rw [← bareName_squeezed hn, show squeezed d'.1 = squeezed d.1 from congrArg Prod.fst he, bareName_squeezed hn]
  exact ⟨d'.2, List.mem_map.2 ⟨d', hd', by rw [bareEntry, hb]⟩, congrArg Prod.snd he⟩

end

theorem read_reflowed {text body name : String} {value : SExpr} {tops : List SExpr} {ds : List (String × SExpr)}
    (ht : read? text = some tops) (h : Reads (tops.flatMap entries) ds) (hnames : (ds.map (·.1)).Nodup)
    (hb : Text.squeeze [] true body.toList = Text.squeeze [] true text.toList) (hn : Text.Avoids Text.isBlank name)
    (hd : (name, value) ∈ ds) : ∃ (model : List (String × String)) (value' : SExpr), Model.read body = .ok model ∧
      model.Pairwise (fun a b => a.1 < b.1) ∧ value'.map squeezed = value.map squeezed ∧
      ∀ w, (name, w) ∈ model ↔ w = value'.render := by
  have hr := read?_congr hb
  rw [ht, Option.map_some, Option.map_eq_some_iff] at hr
  obtain ⟨tops', ht', he⟩ := hr
  have hes := entries_congr he
  have hsame := congrArg (List.filterMap nullary?) hes
  rw [filterMap_nullary?_map, filterMap_nullary?_map] at hsame
  obtain ⟨ds', h'⟩ : ∃ ds', Reads (tops'.flatMap entries) ds' := ⟨_, named_of_eq hes.symm h.named, rfl⟩
  have hcount : (ds'.map (·.1)).count name ≤ 1 := by
    rw [← h'.read, count_congr hn hsame, h.read]
    exact List.nodup_iff_count_le_one.1 hnames name
  obtain ⟨value', hd', hv⟩ : ∃ value', (name, value') ∈ ds' ∧ value'.map squeezed = value.map squeezed := by
    rw [← h'.read]
    exact mem_congr hn hsame (h.read ▸ hd)
  exact ⟨_, value', read_of_reads ht' h', sort_sorted nodup_rendered, hv, fun w => mem_sort_defineAll hcount hd'⟩

end Model

theorem Finding.replyLines_eq (stdout : String) :
    replyLines stdout = (Text.kept (Text.linesFrom [] stdout.toList)).map String.ofList := by
  have htrim : Text.trim ∘ String.ofList = String.ofList ∘ Text.strip Text.isBlank := by
    funext line
    simp [Text.trim]
  have hempty : (fun line : String => !line.isEmpty) ∘ String.ofList = fun line => !line.isEmpty := by
    funext line
    cases line <;> simp
  rw [replyLines, Text.lines, Text.kept, List.map_map, htrim, ← List.map_map, List.filter_map, hempty]

theorem Finding.ofOutput_sat {before after : String} (hb : Text.Blank before.toList) (ha : Text.Blank after.toList)
    (hbreak : ∃ c ∈ after.toList, Text.isLineBreak c = true) (text stderr : String) : ∃ body : String,
    Text.squeeze [] true body.toList = Text.squeeze [] true text.toList ∧
      ∀ model, Model.read body = .ok model →
        ofOutput (before ++ "sat" ++ after ++ text) stderr = .ok { status := .sat, model } := by
  have hsat : Text.Avoids Text.isBlank "sat" := Text.avoids_of_all (by decide)
  obtain ⟨w, hw, hkept⟩ := Text.kept_word hb ha hbreak hsat (by decide) text.toList
  have hlines : replyLines (before ++ "sat" ++ after ++ text) =
      "sat" :: (Text.kept (Text.linesFrom [] (w ++ text.toList))).map String.ofList := by
    simp only [replyLines_eq, String.toList_append, List.append_assoc, hkept, List.map_cons, String.ofList_toList]
  refine ⟨"\n".intercalate ((Text.kept (Text.linesFrom [] (w ++ text.toList))).map String.ofList), ?_, ?_⟩
  · have hg := Text.squeeze_around hw (y := []) (by simp [Text.Blank]) text.toList
    rw [List.append_nil] at hg
    have hid : String.toList ∘ String.ofList = id := funext fun _ => String.toList_ofList
    rw [String.toList_intercalate, List.map_map, hid, List.map_id, ← hg]
    exact Text.squeeze_joined _
  · intro model hm
    rw [ofOutput, hlines]
    simp only [hm]
    rfl

theorem Supply.solid_of_draw {t : StreamType} {hint name : String} {s s' : Supply} {v : SymValue}
    (h : (draw t hint).run s = (.ok v, s')) (hv : name ∈ v.names) : Text.Avoids Text.isBlank name := by
  intro c hc
  have hm := unmasked_of_draw h name hv c hc
  simp only [isMasked, Bool.or_eq_false_iff] at hm
  exact hm.1.1

theorem models_read_back {tops : List SExpr} {groups : List (List (String × SExpr))} {text : String}
    (hparts : List.Forall₂ Model.Part tops groups) (hnames : (groups.flatten.map (·.1)).Nodup)
    (htext : Prints (flattenItems tops) text.toList) :
    (∃ model, Model.read text = .ok model ∧ model.Pairwise (fun a b => a.1 < b.1) ∧
      model.Perm (groups.flatten.map fun d => (d.1, spell d.2.flatten))) ∧
    ∀ {t : StreamType} {hint name : String} {s s' : Supply} {v : SymValue} {value : SExpr}
      {before after stderr : String}, (Supply.draw t hint).run s = (.ok v, s') → name ∈ v.names →
      (name, value) ∈ groups.flatten → Text.Blank before.toList → Text.Blank after.toList →
      (∃ c ∈ after.toList, Text.isLineBreak c = true) →
      ∃ (found : Finding) (value' : SExpr), Finding.ofOutput (before ++ "sat" ++ after ++ text) stderr = .ok found ∧
        found.status = .sat ∧ found.model.Pairwise (fun a b => a.1 < b.1) ∧
        value'.map squeezed = value.map squeezed ∧ ∀ w, (name, w) ∈ found.model ↔ w = spell value'.flatten := by
  have ht := read?_of_prints htext
  have hr := Model.reads_parts hparts
  constructor
  · refine ⟨_, Model.read_of_reads ht hr, Model.sort_sorted Model.nodup_rendered, ?_⟩
    simp only [← render_eq]
    exact Model.sort_defineAll_perm hnames
  · intro t hint name s s' v value before after stderr hdraw hv hd hb ha hbreak
    obtain ⟨body, hbody, hout⟩ := Finding.ofOutput_sat hb ha hbreak text stderr
    obtain ⟨model, value', hm, hs, hvalue, hw⟩ :=
      Model.read_reflowed ht hr hnames hbody (Supply.solid_of_draw hdraw hv) hd
    exact ⟨_, value', hout model hm, rfl, hs, hvalue, fun w => render_eq value' ▸ hw w⟩

def sampleEntries : List SExpr :=
  [.list [.atom "define-fun", .atom "|k!0|", .list [], .atom "Bool", .atom "true"],
    .list [.atom "define-fun", .atom "f", .list [.list [.atom "x", .atom "Int"]], .atom "Int", .atom "x"]]

def samplePieces : List (String × Token) :=
  [("", .atom "ok"), ("\n ", .left), ("", .atom "model"), ("\r\n\n", .left), (" ", .atom "define-fun"),
    ("\t", .atom "|k!0|"), ("", .left), (" ", .right), ("", .atom "Bool"), ("\n", .atom "true"), ("", .right),
    ("", .left), ("", .atom "define-fun"), (" ", .atom "f"), ("", .left), ("", .left), ("", .atom "x"),
    (" ", .atom "Int"), ("", .right), ("", .right), (" ", .atom "Int"), (" ", .atom "x"), ("", .right), ("\n", .right)]

theorem sample_read_back :
    (∃ model, Model.read (String.ofList (laid samplePieces)) = .ok model ∧ model.Perm [("k!0", "true")]) ∧
    ∃ v s', (Supply.draw .bool "k").run {} = (.ok v, s') ∧ "k!0" ∈ v.names ∧
      ∃ found, Finding.ofOutput ("\n" ++ "sat" ++ " \r\n" ++ String.ofList (laid samplePieces)) "" = .ok found ∧
        found.status = .sat ∧ ("k!0", "true") ∈ found.model := by
  have hspells : Model.Spells "k!0" "|k!0|" := .barred (by decide)
  have hentries : List.Forall₂ Model.Entry sampleEntries [[("k!0", .atom "true")], []] :=
    .cons (.symbol hspells) (.cons .function .nil)
  have hparts : List.Forall₂ Model.Part [.atom "ok", .list (.atom "model" :: sampleEntries)]
      [[], [("k!0", .atom "true")]] := .cons (.atom _) (.cons (.model hentries) .nil)
  have hlaid : isLaid samplePieces = true := by decide
  have htext : Prints (flattenItems [.atom "ok", .list (.atom "model" :: sampleEntries)])
      (String.ofList (laid samplePieces)).toList := by
    rw [String.toList_ofList]
    exact prints_laid hlaid
  obtain ⟨⟨model, hm, _, hp⟩, hreply⟩ := models_read_back hparts (by decide) htext
  refine ⟨⟨model, hm, hp⟩, _, _, Supply.run_draw_bool (by decide) {}, ?_⟩
  have hname : "k!0" ∈ (Supply.symbolFor {} "k" .bool).names := by decide +kernel
  have hbefore : Text.Blank "\n".toList := List.all_eq_true.1 (by decide)
  have hafter : Text.Blank " \r\n".toList := List.all_eq_true.1 (by decide)
  have hbreak : ∃ c ∈ " \r\n".toList, Text.isLineBreak c = true := List.any_eq_true.1 (by decide)
  obtain ⟨found, value, ho, hs, _, hvalue, hw⟩ := hreply (Supply.run_draw_bool (by decide) {}) hname
    (List.mem_singleton.2 rfl) hbefore hafter hbreak
  have htrue : Text.Avoids Text.isBlank "true" := Text.avoids_of_all (by decide)
  obtain rfl : value = .atom "true" :=
    (Model.map_eq_word_iff htrue).1 (hvalue.trans ((Model.map_eq_word_iff htrue).2 rfl))
  exact ⟨hname, found, ho, hs, (hw _).2 rfl⟩

end OneStep
