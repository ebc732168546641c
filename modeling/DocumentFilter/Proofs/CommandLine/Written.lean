import DocumentFilter.Proofs.CommandLine.Runs
import DocumentFilter.Proofs.Text.StandIns

/-!
# Records that are written and read

A command writes each of its documents on a line of its own, and another one reads lines. Between
the two, a text is cut at every end of a line that there is, the lines are stripped of blanks, and
those that are left empty are passed over. All of this leaves the text of a document alone, whatever
is in its strings: what could end a line is escaped, the text neither starts nor ends with a blank,
and some of it is left. So the first line that was written gives the first document again, and the
rest of the text is read as if it came alone, but for the numbers of its lines
(`DocumentFilter.CommandLine.feedFrom_chars`). The induction on the documents does the rest.

This needs of the documents that there is a text for them, and here nothing more can be asked for:
what is read from the lines has a text, so it is only such documents that can come back. Of the
writing, it needs that no string holds half of a pair. Such a document is not written, nor is what
comes behind it, and then there are fewer lines than documents.

* `DocumentFilter.CommandLine.written`: what is written of documents;
* `DocumentFilter.CommandLine.feed_printed_append`: **in front of whatever is behind it**, it is
  read back;
* `DocumentFilter.CommandLine.exists_isPrintable`: stand-ins that are in none of them;
* `DocumentFilter.CommandLine.feed_written`: **exactly what a text can denote comes back**, and so
  does what a query leads to.
-/

namespace DocumentFilter

open Document (Legible)

section Legible

variable [StandIns]

/-- **The legible documents**, by the texts of strings. -/
theorem Json.legible_iff_read {doc : Document} : doc.Legible ↔ ∃ text, read text = .ok doc := by
  constructor
  · exact fun legible => ⟨doc.text, read_text legible⟩
  · rintro ⟨text, known⟩
    rw [read] at known
    cases denoted : document text.toList with
    | ok other =>
      rw [denoted] at known
      cases known
      exact legible_of_document denoted
    | error stop =>
      rw [denoted] at known
      cases stop <;> cases known

end Legible

/-! ### Values that a query leads to -/

namespace Document

/-- A step leads from a legible document to legible ones, for they are parts of it. -/
theorem Legible.apply {doc : Document} (legible : doc.Legible) (step : Step) :
    ∀ next ∈ step.apply doc, next.Legible := by
  intro next mem
  cases step with
  | key name =>
    rw [Step.apply, Option.mem_toList] at mem
    cases legible with
    | object nodup all => exact all _ (mem_of_lookup mem)
    | _ => cases mem
  | aggregate shape =>
    cases legible with
    | array all => exact all next (List.mem_of_mem_filter mem)
    | _ => cases mem

theorem legible_of_mem_advance {steps : List Step} {candidates : List Document}
    (legible : ∀ doc ∈ candidates, doc.Legible) :
    ∀ value ∈ Query.advance steps candidates, value.Legible := by
  induction steps generalizing candidates with
  | nil => exact legible
  | cons step rest ih =>
    refine ih ?_
    rw [List.forall_mem_flatMap]
    exact fun doc mem => (legible doc mem).apply step

/-- **The values of a query** on a legible document are an array that is legible. -/
theorem Legible.resolve {doc : Document} (legible : doc.Legible) (query : Query) :
    (Document.array (query.resolve doc)).Legible :=
  .array (legible_of_mem_advance (List.forall_mem_singleton.2 legible))

end Document

namespace CommandLine

/-! ### Lines that come later -/

/-- The same fault, a number of lines later. -/
def FeedFault.later (count : Nat) : FeedFault → FeedFault
  | .malformed line flaw => .malformed (line + count) flaw
  | fault => fault

/-- **An input behind documents**, each of which has a line. -/
def Feed.behind (docs : List Document) (source : Feed) : Feed :=
  ⟨docs ++ source.documents, source.fault.map (FeedFault.later docs.length)⟩

theorem FeedFault.later_zero (fault : FeedFault) : fault.later 0 = fault := by
  cases fault <;> rfl

theorem FeedFault.later_later (count more : Nat) (fault : FeedFault) :
    (fault.later more).later count = fault.later (count + more) := by
  cases fault with
  | malformed line flaw => rw [later, later, later, Nat.add_assoc, Nat.add_comm more]
  | oversized => rfl
  | notUtf8 => rfl

theorem Feed.behind_nil (source : Feed) : source.behind [] = source := by
  rw [behind, List.nil_append, List.length_nil, funext FeedFault.later_zero, Option.map_id']

/-- Documents that are read before others. -/
theorem Feed.behind_behind (docs more : List Document) (source : Feed) :
    (source.behind more).behind docs = source.behind (docs ++ more) := by
  rw [behind, behind, behind, List.append_assoc, Option.map_map, List.length_append]
  congr 2
  exact funext fun fault => fault.later_later docs.length more.length

section Writing

variable [StandIns]

/-- Only the numbers of lines depend on where the count starts. -/
theorem feedFrom_succ (whole : Bool) (number : Nat) (lines : List (List Char)) :
    feedFrom whole (number + 1) lines =
      ⟨(feedFrom whole number lines).documents,
        (feedFrom whole number lines).fault.map (FeedFault.later 1)⟩ := by
  induction lines generalizing number with
  | nil => cases whole <;> rfl
  | cons line rest ih =>
    by_cases blank : IsBlankLine line
    · rw [feedFrom_blank _ _ _ blank, feedFrom_blank _ _ _ blank, ih]
    cases read : Json.document (Text.strip line) with
    | ok doc => rw [feedFrom_record _ _ _ read, feedFrom_record _ _ _ read, ih]
    | error stop =>
      rw [feedFrom_stop _ _ _ blank read, feedFrom_stop _ _ _ blank read]
      cases stop <;> rfl

/-! ### One document, and many -/

/-- **A document that is written on a line** is read, and then what is behind the line. -/
theorem feedFrom_chars {doc : Document} (legible : doc.Legible) (rest : List Char) :
    feedFrom true 1 (Text.lines (doc.chars ++ '\n' :: rest)) =
      (feedFrom true 1 (Text.lines rest)).behind [doc] := by
  have line : Text.IsLine doc.chars := doc.toList_text ▸ doc.isLine_text
  have read : Json.document (Text.strip doc.chars) = .ok doc := by
    rw [Document.strip_chars, Json.document_chars legible]
  rw [Text.lines_cons line (Text.lineFeeds_cons (by decide) rest), feedFrom_record _ _ _ read,
    feedFrom_succ]
  rfl

/-- **What is written of documents**: each is printed, one after the other. -/
def written (docs : List Document) : String :=
  (Report.ofRun .warning (forDocuments (fun _ doc => print doc.text) 0 docs)).stdout

/-- What is written are the documents before the first that cannot be printed. -/
theorem written_eq (docs : List Document) :
    written docs = printedText ((docs.takeWhile isPrintable).map Document.text) := by
  have prints := prints_forDocuments (fun _ doc => prints_print doc.text) 0 docs
  rw [written, Report.stdout, prints.printed_ofRun, flatMap_zipIdx fun doc => [doc.text],
    ← List.map_eq_flatMap, writablePrefix_map_text]

omit [StandIns] in
/-- Every document has its line. -/
theorem toList_printedText_map_text (docs : List Document) :
    (printedText (docs.map Document.text)).toList =
      docs.flatMap fun doc => doc.chars ++ ['\n'] := by
  rw [printedText, String.toList_ofList, List.flatMap_map]
  simp only [Document.toList_text]

/-- There are no more documents than lines. -/
theorem length_documents_feedFrom_le (whole : Bool) (number : Nat) (lines : List (List Char)) :
    (feedFrom whole number lines).documents.length ≤ lines.length := by
  induction lines generalizing number with
  | nil => exact Nat.le_refl 0
  | cons line rest ih =>
    by_cases blank : IsBlankLine line
    · rw [feedFrom_blank _ _ _ blank]
      exact Nat.le_succ_of_le (ih _)
    cases read : Json.document (Text.strip line) with
    | ok doc =>
      rw [feedFrom_record _ _ _ read]
      exact Nat.succ_le_succ (ih _)
    | error stop =>
      rw [feedFrom_stop _ _ _ blank read]
      exact Nat.zero_le _

/-- **What is written is read back**, in front of whatever is behind it. The induction is on the
documents; to the first of them, the lines of the others are part of what is behind it. -/
theorem feed_printed_append {docs : List Document} (legible : ∀ doc ∈ docs, doc.Legible)
    (more : String) :
    feed (Utf8.encode (printedText (docs.map Document.text) ++ more)) =
      (feed (Utf8.encode more)).behind docs := by
  rw [feed_encode, feed_encode, String.toList_append, toList_printedText_map_text]
  induction docs with
  | nil => exact (Feed.behind_nil _).symm
  | cons doc rest ih =>
    obtain ⟨first, others⟩ := List.forall_mem_cons.1 legible
    rw [List.flatMap_cons, List.append_assoc, List.append_assoc, List.singleton_append,
      feedFrom_chars first, ih others, Feed.behind_behind, List.singleton_append]

omit [StandIns] in
/-- **Documents can be printed** with stand-ins that are not in them, and there are such unless
nearly all characters for private use are. -/
theorem exists_isPrintable {docs : List Document}
    (few : ((docs.flatMap Document.chars).filter Text.isPrivate).dedup.length ≤ 0x1F800) :
    ∃ standIns : StandIns, ∀ doc ∈ docs, @isPrintable standIns doc = true := by
  obtain ⟨standIns, apart⟩ := StandIns.exists_avoiding _ few
  refine ⟨standIns, fun doc mem => List.all_eq_true.2 fun c inside => ?_⟩
  rw [Document.toList_text] at inside
  rw [apart c (List.mem_flatMap.2 ⟨doc, mem, inside⟩)]
  rfl

/-- **Documents that come back** can be printed: else there would be more of them than lines. -/
theorem isPrintable_of_feed_written {docs : List Document} {fault : Option FeedFault}
    (same : feed (Utf8.encode (written docs)) = ⟨docs, fault⟩) :
    ∀ doc ∈ docs, isPrintable doc = true := by
  have isLine : ∀ line ∈ (docs.takeWhile isPrintable).map Document.text,
      Text.IsLine line.toList := List.forall_mem_map.2 fun doc _ => doc.isLine_text
  have lines := lines_printedText isLine
  rw [feed_encode, written_eq, lines] at same
  have most := length_documents_feedFrom_le true 1
    (((docs.takeWhile isPrintable).map Document.text).map String.toList)
  rw [same, List.length_map, List.length_map] at most
  exact List.takeWhile_eq_self_iff.1 ((List.takeWhile_prefix _).eq_of_length_le most)

/-- **Exactly what a text can denote comes back.** The legible documents are those that a JSON text
denotes. The texts of documents, one a line, are read as the same documents in the same order if
they are legible, and only then. So are documents that are written, if there is also no half of a
pair in them, and only then; and if this is so, it is whatever is written behind them, where what is
behind them is read as well. Which characters stand in for halves is no restriction, for there is a
choice with which none is in these documents. What a query prints for an input is of this kind:
whatever the bytes, the arrays of values that it leads to are read back, one for each record of the
input, up to the first that holds half of a pair. -/
theorem feed_written (docs : List Document) :
    (∀ doc : Document, doc.Legible ↔ ∃ text, Json.read text = .ok doc) ∧
      ((∀ doc ∈ docs, doc.Legible) ↔
        feed (Utf8.encode (printedText (docs.map Document.text))) = ⟨docs, none⟩) ∧
      ((∀ doc ∈ docs, doc.Legible ∧ isPrintable doc = true) ↔
        feed (Utf8.encode (written docs)) = ⟨docs, none⟩) ∧
      ((∀ doc ∈ docs, doc.Legible ∧ isPrintable doc = true) → ∀ more,
        feed (Utf8.encode (written docs ++ more)) = (feed (Utf8.encode more)).behind docs) ∧
      (((docs.flatMap Document.chars).filter Text.isPrivate).dedup.length ≤ 0x1F800 →
        ∃ standIns : StandIns, ∀ doc ∈ docs, @isPrintable standIns doc = true) ∧
      ∀ {world : World} {words : List String} {text : String} {query : Query}
        {bytes : List UInt8} (threshold : Option LogLevel),
        CallsQuery world words text bytes → Query.parse text = .ok query →
          feed (Utf8.encode (execute world threshold words).stdout) =
            ⟨((feed bytes).documents.map fun doc => .array (query.resolve doc)).takeWhile
              isPrintable, none⟩ := by
  have all : (∀ doc ∈ docs, doc.Legible ∧ isPrintable doc = true) →
      (∀ doc ∈ docs, doc.Legible) ∧ written docs = printedText (docs.map Document.text) := by
    intro known
    rw [written_eq, List.takeWhile_eq_self_iff.2 fun doc mem => (known doc mem).2]
    exact ⟨fun doc mem => (known doc mem).1, rfl⟩
  refine ⟨fun doc => Json.legible_iff_read, ⟨feed_printed, fun same => ?_⟩,
    ⟨fun known => ?_, fun same doc mem => ⟨?_, isPrintable_of_feed_written same doc mem⟩⟩,
    fun known more => ?_, exists_isPrintable, ?_⟩
  · -- whatever comes out of an input is legible
    have read := legible_of_feed (Utf8.encode (printedText (docs.map Document.text)))
    rwa [same] at read
  · obtain ⟨legible, same⟩ := all known
    rw [same, feed_printed legible]
  · have read := legible_of_feed (Utf8.encode (written docs))
    rw [same] at read
    exact read doc mem
  · obtain ⟨legible, same⟩ := all known
    rw [same, feed_printed_append legible]
  · intro world words text query bytes threshold calls parsed
    obtain ⟨level, report⟩ := calls.report threshold
    have printed := (prints_runQuery parsed bytes).printed_ofRun level
    have legible : ∀ values ∈ ((feed bytes).documents.map fun doc =>
        Document.array (query.resolve doc)).takeWhile isPrintable, values.Legible := by
      intro values mem
      obtain ⟨doc, given, rfl⟩ := List.mem_map.1 ((List.takeWhile_sublist _).mem mem)
      exact (legible_of_feed bytes doc given).resolve query
    rw [report, Report.stdout, printed, ← feed_printed legible, ← writablePrefix_map_text,
      List.map_map]
    rfl

end Writing

/-- Strings that hold ends of lines of all sorts, blanks at their ends and what has to be escaped;
an object whose fields are not in alphabetical order, and in it an infinity and the number 1 in both
ways; and the values of a query for each of these. A line that is not JSON comes behind them. -/
theorem feed_written_breaks :
    let docs : List Document :=
      [.string "\u0085 \u2028\r\n ", .string "\"\\\t\u0000/",
        .object [("b", .array [.number (.float (.infinite true)), .number (.int 1)]),
          ("a", .number (.float (.ofRat false 1)))]]
    let world : World := ⟨fun _ => .error .missing, Utf8.encode (written docs), ⟨none, none⟩,
      fun _ => [], ⟨0, by decide⟩⟩
    let values : List Document := [.array [], .array [],
      .array [.array [.number (.float (.infinite true)), .number (.int 1)]]]
    (∀ doc ∈ docs, doc.Legible ∧ isPrintable doc = true) ∧
      feed (Utf8.encode (written docs)) = ⟨docs, none⟩ ∧
      feed (Utf8.encode (written docs ++ "x")) = (feed (Utf8.encode "x")).behind docs ∧
      feed (Utf8.encode (execute world none ["query", "\"b\""]).stdout) = ⟨values, none⟩ := by
  intro docs world values
  let query : Query := ⟨"\"b\"", [.key "b"]⟩
  have legible : ∀ doc ∈ docs, doc.Legible := by
    have one : Json.Fits (.int 1) := show (Decimal.digits 1).length ≤ Json.integerDigits by cbv
    have b : (Document.array [.number (.float (.infinite true)), .number (.int 1)]).Legible :=
      .array (List.forall_mem_cons.2
        ⟨.number trivial, List.forall_mem_singleton.2 (.number one)⟩)
    simp only [docs, List.forall_mem_cons]
    refine ⟨.string _, .string _, .object (by decide) ?_, fun _ mem => absurd mem List.not_mem_nil⟩
    exact List.forall_mem_cons.2 ⟨b, List.forall_mem_singleton.2 (.number trivial)⟩
  have printable : ∀ doc ∈ docs, isPrintable doc = true := by decide +kernel
  have known : ∀ doc ∈ docs, doc.Legible ∧ isPrintable doc = true := fun doc mem =>
    ⟨legible doc mem, printable doc mem⟩
  have calls : CallsQuery world ["query", "\"b\""] "\"b\"" (Utf8.encode (written docs)) :=
    ⟨_, "-", rfl, rfl, rfl, rfl⟩
  have parsed : Query.parse "\"b\"" = .ok query :=
    Query.parse_eq_ok_iff.2 ⟨⟨⟨[.plain 'b' (by decide)], by decide⟩, []⟩, rfl, by decide, rfl⟩
  obtain ⟨-, -, same, more, -, queried⟩ := feed_written docs
  have shown := queried none calls parsed
  rw [same.1 known] at shown
  have all : ∀ doc ∈ values, isPrintable doc = true := by decide +kernel
  have resolved : (docs.map fun doc => Document.array (query.resolve doc)) = values := rfl
  rw [resolved, List.takeWhile_eq_self_iff.2 all] at shown
  exact ⟨known, same.1 known, more known "x", shown⟩

end CommandLine

end DocumentFilter
