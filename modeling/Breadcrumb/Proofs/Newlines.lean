import Breadcrumb.Proofs.Listings
import Breadcrumb.Proofs.Tour

/-!
# No tag holds a newline

Newlines part a text into lines, so no line holds one, and neither does a tag, which is a part of
its line. A path puts tags, separators and backslashes together and nothing else. So if the
separator holds no newline, each entry of a listing is one line, and the listing can be read back.

* `KeyPath.mem_joinChars`: where the characters of a path come from.
* `Document.newline_not_mem_tag`, `Document.newline_not_mem_path?`: tags and paths hold no newline.
* `Listing.splitOn_entries`: a listing has a line for each entry.
* `Listing.read_back`: listings are read back, those of documents among them.
-/

namespace Breadcrumb

/-! ## What paths are made of -/

namespace KeyPath

variable {separator key : List Char} {c : Char}

theorem mem_escapeChars (h : c ∈ escapeChars separator key) :
    c = '\\' ∨ c ∈ separator ∨ c ∈ key := by
  fun_induction escapeChars separator key with
  | case1 => cases h
  | case2 key ih =>
    rw [List.mem_cons, List.mem_cons] at h
    rcases h with h | h | h
    · exact .inl h
    · exact .inl h
    · exact (ih h).imp_right (Or.imp_right (List.mem_cons_of_mem _))
  | case3 d key _ _ ih =>
    rw [List.mem_cons, List.mem_append] at h
    rcases h with h | h | h
    · exact .inl h
    · exact .inr (.inl h)
    · exact (ih h).imp_right (Or.imp_right List.mem_of_mem_drop)
  | case4 d key _ _ ih =>
    rw [List.mem_cons] at h
    rcases h with h | h
    · exact .inr (.inr (h ▸ List.mem_cons_self))
    · exact (ih h).imp_right (Or.imp_right (List.mem_cons_of_mem _))

theorem mem_intercalate {texts : List (List Char)} (h : c ∈ separator.intercalate texts) :
    c ∈ separator ∨ ∃ text ∈ texts, c ∈ text := by
  induction texts with
  | nil => cases h
  | cons text texts ih =>
    by_cases hlast : texts = []
    · subst hlast
      rw [List.intercalate_singleton] at h
      exact .inr ⟨text, List.mem_cons_self, h⟩
    · rw [List.intercalate_cons_of_ne_nil hlast, List.mem_append, List.mem_append] at h
      rcases h with (h | h) | h
      · exact .inr ⟨text, List.mem_cons_self, h⟩
      · exact .inl h
      · refine (ih h).imp_right ?_
        rintro ⟨other, hother, hc⟩
        exact ⟨other, List.mem_cons_of_mem _ hother, hc⟩

/-- **A path holds what its keys and separators hold**, and backslashes. -/
theorem mem_joinChars {escapes : Bool} {keys : List (List Char)}
    (h : c ∈ joinChars separator escapes keys) :
    c = '\\' ∨ c ∈ separator ∨ ∃ key ∈ keys, c ∈ key := by
  rcases mem_intercalate h with h | ⟨text, htext, hc⟩
  · exact .inr (.inl h)
  · cases escapes with
    | false => exact .inr (.inr ⟨text, htext, hc⟩)
    | true =>
      rw [if_pos rfl] at htext
      obtain ⟨key, hkey, rfl⟩ := List.mem_map.1 htext
      exact (mem_escapeChars hc).imp_right (Or.imp_right fun hmem => ⟨key, hkey, hmem⟩)

end KeyPath

/-! ## Tags and paths of documents -/

/-- A tag is a part of its line. -/
theorem Line.mem_chars_of_mem_tag {line : Line} {tabWidth : UInt64} {c : Char}
    (h : c ∈ (line.tag tabWidth).toList) : c ∈ line.chars := by
  obtain ⟨walked, hchars, -⟩ :=
    Text.seek_append tabWidth (line.indentation tabWidth) 0 line.chars
  rw [tag, String.toList_ofList] at h
  cases htoken : Token.leading? (Text.seek tabWidth (line.indentation tabWidth) 0 line.chars).2 with
  | none =>
    rw [htoken] at h
    cases h
  | some token =>
    rw [htoken] at h
    obtain ⟨rest, hrest⟩ := Token.exists_append_of_leading? htoken
    rw [hchars, hrest]
    exact List.mem_append_right _ (List.mem_append_left _ h)

namespace Document

theorem exists_crumb_of_mem_trail? {doc : Document} {i : Nat} {crumbs : List Crumb} {item : Crumb}
    (h : doc.trail? i = some crumbs) (hitem : item ∈ crumbs) : ∃ j, item = doc.crumb j := by
  obtain ⟨-, h⟩ := Option.ite_none_right_eq_some.1 h
  rw [← Option.some.inj h] at hitem
  obtain ⟨j, -, rfl⟩ := List.mem_map.1 hitem
  exact ⟨j, rfl⟩

variable {text : List Char} {tabWidth : UInt64} {settings : Settings}

theorem newline_not_mem_line? {i : Nat} {line : Line}
    (h : (ofText text tabWidth).line? i = some line) : '\n' ∉ line.chars := by
  have hmem : line.chars ∈ (ofText text tabWidth).lines.toList.map Line.chars :=
    List.mem_map_of_mem (Array.mem_toList_iff.2 (Array.mem_of_getElem? h))
  rw [ofText, chars_ofLines (Text.lines_ne_nil text)] at hmem
  exact Text.newline_not_mem_of_mem_lines hmem

/-- **No tag holds a newline.** -/
theorem newline_not_mem_tag (i : Nat) : '\n' ∉ ((ofText text tabWidth).tag i).toList := by
  unfold tag
  cases hline : (ofText text tabWidth).line? i with
  | none => exact List.not_mem_nil
  | some line => exact fun h => newline_not_mem_line? hline (Line.mem_chars_of_mem_tag h)

theorem legibleTrail_trail? {i : Nat} {crumbs : List Crumb}
    (h : (ofText text tabWidth).trail? i = some crumbs) : Listing.LegibleTrail crumbs := by
  intro item hitem
  obtain ⟨j, rfl⟩ := exists_crumb_of_mem_trail? h hitem
  exact newline_not_mem_tag j

/-- No path holds a newline, unless the separator does. -/
theorem newline_not_mem_path? (hseparator : '\n' ∉ settings.separator.toList) {i : Nat}
    {path : String} (h : (ofText text tabWidth).path? settings i = some path) :
    '\n' ∉ path.toList := by
  obtain ⟨keys, hkeys, rfl⟩ := Option.map_eq_some_iff.1 h
  obtain ⟨crumbs, hcrumbs, rfl⟩ := Option.map_eq_some_iff.1 hkeys
  intro hmem
  rw [KeyPath.join, String.toList_ofList] at hmem
  rcases KeyPath.mem_joinChars hmem with hc | hc | ⟨key, hkey, hc⟩
  · cases hc
  · exact hseparator hc
  · rw [List.map_map] at hkey
    obtain ⟨item, hitem, rfl⟩ := List.mem_map.1 hkey
    exact legibleTrail_trail? hcrumbs item hitem hc

theorem legible_paths (hseparator : '\n' ∉ settings.separator.toList) :
    Listing.Legible .newline ((ofText text tabWidth).paths settings) := by
  rintro ⟨number, path⟩ hitem
  obtain ⟨i, -, hpath⟩ := mem_paths_iff.1 hitem
  exact newline_not_mem_path? hseparator hpath

end Document

/-! ## Listings of documents -/

namespace Listing

/-- **A legible listing has a line for each entry.** -/
theorem splitOn_entries {items : List (Nat × String)} (h : Legible .newline items) :
    (entries .newline items).toList.splitOn '\n' =
      items.map (fun item => (toString item.1 ++ ":" ++ item.2).toList) ++ [[]] := by
  rw [toList_entries]
  induction items with
  | nil => rfl
  | cons item items ih =>
    obtain ⟨hitem, hitems⟩ := List.forall_mem_cons.1 h
    have hline : '\n' ∉ (toString item.1 ++ ":" ++ item.2).toList := by
      rw [String.toList_append, String.toList_append, List.mem_append, List.mem_append]
      rintro ((hmem | hmem) | hmem)
      · exact not_mem_toString (by decide) item.1 hmem
      · exact absurd hmem (by decide)
      · exact hitem hmem
    have hentry : (entry .newline item.1 item.2).toList =
        (toString item.1 ++ ":" ++ item.2).toList ++ ['\n'] := String.toList_append
    -- the newline that ends the entry is the first one, so the first piece is the entry
    rw [List.flatMap_cons, hentry, List.append_assoc, List.singleton_append,
      List.splitOn_append_cons_self_of_not_mem hline, ih hitems]
    rfl

open CommandLine in
/-- **Listings are read back.** For both endings, the entries are read back just from the text
printed for them, if no path holds what ends an entry, and so different entries make different
texts. So are trails without colors, if no tag holds a newline. No tag of a document does. So with
a separator without newlines, a run that lists all paths in lines prints one line for each
structural line, and what is read back are the numbers of these lines and their paths. -/
theorem read_back :
    (∀ ending text items,
      readEntries? ending text = some items ↔ text = entries ending items ∧ Legible ending items) ∧
    (∀ ending items others, Legible ending items → Legible ending others →
      (entries ending items = entries ending others ↔ items = others)) ∧
    (∀ text crumbs,
      readTrail? text = some crumbs ↔ text = trail false crumbs ∧ LegibleTrail crumbs) ∧
    (∀ crumbs others, LegibleTrail crumbs → LegibleTrail others →
      (trail false crumbs = trail false others ↔ crumbs = others)) ∧
    ∀ text tabWidth,
      let doc := Document.ofText text tabWidth
      (∀ i, '\n' ∉ (doc.tag i).toList) ∧
      (∀ i crumbs, doc.trail? i = some crumbs → readTrail? (trail false crumbs) = some crumbs) ∧
      ∀ (job : Job) (maxSize : Nat) (force : Bool), doc.size < UInt64.size →
        '\n' ∉ job.options.settings.separator.toList →
        let listed := doc.paths job.options.settings
        let outcome := (job.asking maxSize (.paths .newline force)).answer doc
        (outcome.exit = 0 ↔ doc.size ≤ maxSize ∨ force = true) ∧
        (outcome.exit = 0 →
          readEntries? .newline outcome.stdout = some listed ∧
          outcome.stdout.toList.splitOn '\n' =
            listed.map (fun item => (toString item.1 ++ ":" ++ item.2).toList) ++ [[]]) ∧
        listed.map (Prod.map id some) =
          ((List.range doc.lines.size).filter doc.isStructural).map fun i =>
            (i + 1, doc.path? job.options.settings i) := by
  refine ⟨fun _ _ _ => readEntries?_eq_some_iff, fun _ _ _ => entries_eq_iff,
    fun _ _ => readTrail?_eq_some_iff, fun _ _ => trail_eq_iff, fun text tabWidth => ?_⟩
  intro doc
  refine ⟨Document.newline_not_mem_tag, fun i crumbs h => ?_, ?_⟩
  · exact readTrail?_eq_some_iff.2 ⟨rfl, Document.legibleTrail_trail? h⟩
  · intro job maxSize force hsize hseparator listed outcome
    have hlegible : Legible .newline listed := Document.legible_paths hseparator
    have hexit : outcome.exit = 0 ↔ doc.size ≤ maxSize ∨ force = true :=
      Job.answer_paths_exit_iff hsize .newline
    refine ⟨hexit, fun hzero => ?_, Document.map_paths⟩
    have hstdout : outcome.stdout = entries .newline listed :=
      (Job.answer_paths_of_admitted hsize .newline (hexit.1 hzero)).2
    rw [hstdout]
    exact ⟨readEntries?_eq_some_iff.2 ⟨rfl, hlegible⟩, splitOn_entries hlegible⟩

open CommandLine in
/-- Keys and separators with colons, a comment that is not listed, and paths with newlines that
NUL characters keep apart. -/
theorem read_back_colons :
    let doc := Document.ofText "1:a: 2\n# c\n::\n 3:b: 4\n".toList 8
    let job : Job := ⟨{ separator := ":" }, .locate "a", ⟨none, []⟩, none⟩
    let outcome := (job.asking 1 (.paths .newline true)).answer doc
    let listed := [(1, "1:a"), (3, ":"), (4, "::3:b")]
    let crumbs : List Crumb := [⟨2, 0, ":"⟩, ⟨3, 1, "3:b"⟩]
    doc.size < UInt64.size ∧ '\n' ∉ job.options.settings.separator.toList ∧ outcome.exit = 0 ∧
      doc.paths job.options.settings = listed ∧
      readEntries? .newline outcome.stdout = some listed ∧
      doc.trail? 3 = some crumbs ∧ readTrail? (trail false crumbs) = some crumbs ∧
      Legible .nul [(1, "a\n2:b")] ∧
      entries .nul [(1, "a\n2:b")] ≠ entries .nul [(1, "a"), (2, "b")] ∧
      LegibleTrail [⟨0, 0, "1:a"⟩] ∧ trail false [⟨0, 0, "1:a"⟩] ≠ trail false [⟨0, 1, "a"⟩] := by
  intro doc job outcome listed crumbs
  obtain ⟨-, hentries, -, htrails, hdocuments⟩ := read_back
  obtain ⟨-, hclimbed, hruns⟩ := hdocuments "1:a: 2\n# c\n::\n 3:b: 4\n".toList 8
  have hsize : doc.size < UInt64.size := by decide
  have hseparator : '\n' ∉ job.options.settings.separator.toList := by decide
  have hlisted : doc.paths job.options.settings = listed := by decide +kernel
  obtain ⟨hexit, hread, -⟩ := hruns job 1 true hsize hseparator
  have hzero : outcome.exit = 0 := hexit.2 (.inr rfl)
  have hcrumbs : doc.trail? 3 = some crumbs := by decide +kernel
  have hnul : Legible .nul [(1, "a\n2:b")] := by decide
  have htrail : LegibleTrail [⟨0, 0, "1:a"⟩] := by decide
  refine ⟨hsize, hseparator, hzero, hlisted, ?_, hcrumbs, hclimbed 3 crumbs hcrumbs, hnul, ?_,
    htrail, ?_⟩
  · rw [(hread hzero).1, hlisted]
  · rw [Ne, hentries .nul _ _ hnul (by decide)]
    decide
  · rw [Ne, htrails _ _ htrail (by decide)]
    decide

end Listing

end Breadcrumb
