import ComponentBuilder.Proofs.Preview.Inert
import Mathlib.Data.List.Infix

/-!
# What a document says of a source

A document of the preview is its template with the values of the markers.  The script of a source and its
bindings stand in two literals, and nothing else in the document depends on the source; a message of an error
stands in one text and one literal.
-/

namespace ComponentBuilder.Preview

/-! ## Templates as characters -/

/-- Lines with the characters of each. -/
inductive Spelled : List String → List (List Char) → Prop where
  | nil : Spelled [] []
  | cons (line : List Char) {texts : List String} {lines : List (List Char)} (h : Spelled texts lines) :
      Spelled (String.ofList line :: texts) (line :: lines)

/-- The characters of lines with their ends. -/
def charactersOf (lines : List (List Char)) : List Char :=
  lines.flatMap (· ++ ['\n'])

theorem toList_lines {texts : List String} {lines : List (List Char)} (h : Spelled texts lines) :
    (Template.lines texts).toList = charactersOf lines := by
  have hbreak : "\n".toList = ['\n'] := by decide +kernel
  rw [Template.lines, String.toList_join, List.flatMap_map]
  induction h with
  | nil => rfl
  | cons line h ih =>
      rw [List.flatMap_cons, ih, String.toList_append, String.toList_ofList, hbreak]
      rfl

theorem toList_append_eq {front rest : String} {text text' : List Char} (hfront : front.toList = text)
    (hrest : rest.toList = text') : (front ++ rest).toList = text ++ text' := by
  rw [String.toList_append, hfront, hrest]

/-- A template cut at its markers. -/
theorem exists_isCut {names : List String} (hnonempty : ∀ name ∈ names, name ≠ "") {template : String}
    {text : List Char} {P : List Piece → Prop} (htext : template.toList = text) (h : P (cut names 0 text)) :
    ∃ pieces, written pieces = template.toList ∧ IsCut names pieces ∧ P pieces :=
  ⟨cut names 0 text, (written_cut hnonempty text).trans htext.symm, isCut_cut hnonempty text, h⟩

/-- Whether some pieces stand in a row among others, with something said of what comes after them. -/
def occursBefore (row : List Piece) (p : List Piece → Bool) (pieces : List Piece) : Bool :=
  pieces.tails.any fun suffix => row.isPrefixOf suffix && p (suffix.drop row.length)

theorem exists_of_occursBefore {row pieces : List Piece} {p : List Piece → Bool}
    (h : occursBefore row p pieces = true) : ∃ front rest, pieces = front ++ row ++ rest ∧ p rest = true := by
  obtain ⟨suffix, hsuffix, hrow⟩ := List.any_eq_true.1 h
  obtain ⟨hstart, hp⟩ := Bool.and_eq_true_iff.1 hrow
  obtain ⟨front, rfl⟩ := (List.mem_tails _ _).1 hsuffix
  have hsplit := List.prefix_iff_eq_append.1 (List.isPrefixOf_iff_prefix.1 hstart)
  refine ⟨front, suffix.drop row.length, ?_, hp⟩
  rw [List.append_assoc, hsplit]

/-- A text without angle brackets adds none. -/
theorem filter_angle {text : List Char} (h : ∀ c ∈ text, c ≠ '<') : text.filter (· == '<') = [] := by
  rw [List.filter_eq_nil_iff]
  intro c hc
  simpa using h c hc

/-! ## Documents of components -/

/-- The markers of a document whose values do not depend on the source. -/
def settledMarkers (generation : Int) : Markers :=
  [("__CSP__", Template.securityPolicy), ("__STATUS_TYPE__", Template.statusType),
    ("__GENERATION_VALUE__", toString generation), ("__SHIM_TABLE__", Shims.table)]

def sourceMarkers (prepared : Prepared) : Markers :=
  [("__BINDINGS_JSON__", scriptBindings prepared.bindings), ("__USER_SOURCE_JSON__", scriptString prepared.script)]

def documentNames : List String :=
  ["__CSP__", "__STATUS_TYPE__", "__GENERATION_VALUE__", "__SHIM_TABLE__", "__BINDINGS_JSON__",
    "__USER_SOURCE_JSON__"]

/-- The lines of a document that hold the literals of a source, with the line ends around them. -/
def sourceLines (script bindings : List Char) : List Char :=
  "\n    var __USER_SOURCE = ".toList ++
    (script ++ (";\n    var __BINDINGS = ".toList ++ (bindings ++ ";\n".toList)))

def sourcePieces : List Piece :=
  plain "\n    var __USER_SOURCE = " ++ .marker "__USER_SOURCE_JSON__" ::
    (plain ";\n    var __BINDINGS = " ++ .marker "__BINDINGS_JSON__" :: plain ";\n")

theorem exists_documentPieces : ∃ pieces,
    written pieces = (Template.head ++ Template.runtime).toList ∧ IsCut documentNames pieces ∧
      pieces.filterMap Piece.name? = ["__CSP__", "__GENERATION_VALUE__", "__STATUS_TYPE__", "__SHIM_TABLE__",
        "__USER_SOURCE_JSON__", "__BINDINGS_JSON__"] ∧
      occursBefore sourcePieces (fun _ => true) pieces = true := by
  apply exists_isCut
  · decide
  · apply toList_append_eq
    · apply toList_lines
      dsimp only
      repeat constructor
    · apply toList_lines
      dsimp only
      repeat constructor
  · rw [@cut_eq_cutMarked documentNames '_' (by decide +kernel)]
    decide +kernel

theorem filled_sourcePieces (prepared : Prepared) (generation : Int) :
    filled (settledMarkers generation ++ sourceMarkers prepared) sourcePieces =
      sourceLines (scriptString prepared.script).toList (scriptBindings prepared.bindings).toList := by
  have hscript : (settledMarkers generation ++ sourceMarkers prepared).lookup "__USER_SOURCE_JSON__" =
      some (scriptString prepared.script) := rfl
  have hbindings : (settledMarkers generation ++ sourceMarkers prepared).lookup "__BINDINGS_JSON__" =
      some (scriptBindings prepared.bindings) := rfl
  rw [sourcePieces, filled_append, filled_plain, filled_cons, filled_append, filled_plain, filled_cons, filled_plain,
    Piece.value, Piece.value, hscript, hbindings]
  rfl

/--
What the document of a source is: the template with the values of its markers, of which the two literals alone
depend on the source.
-/
structure Embeds (pieces : List Piece) (generation : Int) (opening closing : List Char) (source : String) :
    Prop where
  replaced : (compile (.str source) generation).html.toList =
    filled (settledMarkers generation ++ sourceMarkers (prepare source)) pieces
  framed : (compile (.str source) generation).html.toList = opening ++
    (sourceLines (scriptString (prepare source).script).toList (scriptBindings (prepare source).bindings).toList ++
      closing)
  script : IsLiteral (scriptString (prepare source).script).toList (.str (String.ofList (scriptOf source.toList)))
  bindings : IsLiteral (scriptBindings (prepare source).bindings).toList (bindingPairs (prepare source).bindings)
  angles : (compile (.str source) generation).html.toList.filter (· == '<') =
    (opening ++ (sourceLines [] [] ++ closing)).filter (· == '<')

theorem filter_sourceLines {script bindings : List Char} (hscript : ∀ c ∈ script, IsInert c)
    (hbindings : ∀ c ∈ bindings, IsInert c) :
    (sourceLines script bindings).filter (· == '<') = (sourceLines [] []).filter (· == '<') := by
  unfold sourceLines
  iterate 8 rw [List.filter_append]
  rw [filter_angle fun c hc => (hscript c hc).1, filter_angle fun c hc => (hbindings c hc).1, List.filter_nil]

theorem exists_embeds {pieces : List Piece} (hwritten : written pieces = (Template.head ++ Template.runtime).toList)
    (hcut : IsCut documentNames pieces) (hdistinct : (pieces.filterMap Piece.name?).Nodup)
    (hlines : occursBefore sourcePieces (fun _ => true) pieces = true) (generation : Int) :
    ∃ opening closing, ∀ source, Embeds pieces generation opening closing source := by
  obtain ⟨front, rest, rfl, -⟩ := exists_of_occursBefore hlines
  refine ⟨filled (settledMarkers generation) front, filled (settledMarkers generation) rest, fun source => ?_⟩
  have haround : ∀ name ∈ (sourceMarkers (prepare source)).names,
      .marker name ∉ front ∧ .marker name ∉ rest := by
    intro name hname
    apply not_mem_around hdistinct
    simp only [sourceMarkers, List.map_cons, List.map_nil, List.mem_cons, List.not_mem_nil, or_false] at hname
    rcases hname with rfl | rfl
    · exact List.mem_append_right _ (List.mem_cons_of_mem _ (List.mem_append_right _ List.mem_cons_self))
    · exact List.mem_append_right _ List.mem_cons_self
  have hnames : (settledMarkers generation ++ sourceMarkers (prepare source)).names = documentNames := rfl
  have hreplaced : (compile (.str source) generation).html.toList =
      filled (settledMarkers generation ++ sourceMarkers (prepare source)) (front ++ sourcePieces ++ rest) :=
    fill_of_isCut hnames (by decide) (by decide) hcut hwritten.symm
  have hframed : (compile (.str source) generation).html.toList = filled (settledMarkers generation) front ++
      (sourceLines (scriptString (prepare source).script).toList
        (scriptBindings (prepare source).bindings).toList ++ filled (settledMarkers generation) rest) := by
    rw [hreplaced, filled_append, filled_append, filled_sourcePieces,
      filled_of_not_mem fun name hname => (haround name hname).1,
      filled_of_not_mem fun name hname => (haround name hname).2, List.append_assoc]
  have hscript := isLiteral_scriptString (prepare source).script
  have hbindings := isLiteral_scriptBindings (prepare source).bindings
  refine ⟨hreplaced, hframed, hscript, hbindings, ?_⟩
  rw [hframed, List.filter_append, List.filter_append, List.filter_append, List.filter_append,
    filter_sourceLines hscript.inert hbindings.inert]

/-! ## Documents of errors -/

def fallbackMarkers (generation : Int) : Markers :=
  [("__CSP__", Template.securityPolicy), ("__STATUS_TYPE__", Template.statusType),
    ("__GENERATION_VALUE__", toString generation)]

def messageMarkers (message : String) : Markers :=
  [("__MESSAGE_JSON__", scriptString message), ("__MESSAGE__", textOfDocument message)]

def fallbackNames : List String :=
  ["__CSP__", "__STATUS_TYPE__", "__GENERATION_VALUE__", "__MESSAGE_JSON__", "__MESSAGE__"]

/-- The element of a document that holds a message, after its heading. -/
def messageElement (text : List Char) : List Char :=
  "<strong>Compilation Error:</strong>\n".toList ++ (text ++ "</div></div>\n".toList)

def messagePieces : List Piece :=
  plain "<strong>Compilation Error:</strong>\n" ++ .marker "__MESSAGE__" :: plain "</div></div>\n"

/-- The end of the call that posts a message. -/
def messageArgument (literal : List Char) : List Char :=
  "state: \"compile_error\", message: ".toList ++ (literal ++ " \x7d, \"*\");\n".toList)

def argumentPieces : List Piece :=
  plain "state: \"compile_error\", message: " ++ .marker "__MESSAGE_JSON__" :: plain " \x7d, \"*\");\n"

theorem exists_fallbackPieces : ∃ pieces,
    written pieces = Template.fallback.toList ∧ IsCut fallbackNames pieces ∧
      pieces.filterMap Piece.name? = ["__CSP__", "__MESSAGE__", "__STATUS_TYPE__", "__GENERATION_VALUE__",
        "__MESSAGE_JSON__"] ∧
      occursBefore messagePieces (occursBefore argumentPieces fun _ => true) pieces = true := by
  apply exists_isCut
  · decide
  · apply toList_lines
    repeat constructor
  · decide +kernel

theorem filled_messagePieces (message : String) (generation : Int) :
    filled (fallbackMarkers generation ++ messageMarkers message) messagePieces =
      messageElement (textOfDocument message).toList := by
  have htext : (fallbackMarkers generation ++ messageMarkers message).lookup "__MESSAGE__" =
      some (textOfDocument message) := rfl
  rw [messagePieces, filled_append, filled_plain, filled_cons, filled_plain, Piece.value, htext]
  rfl

theorem filled_argumentPieces (message : String) (generation : Int) :
    filled (fallbackMarkers generation ++ messageMarkers message) argumentPieces =
      messageArgument (scriptString message).toList := by
  have hliteral : (fallbackMarkers generation ++ messageMarkers message).lookup "__MESSAGE_JSON__" =
      some (scriptString message) := rfl
  rw [argumentPieces, filled_append, filled_plain, filled_cons, filled_plain, Piece.value, hliteral]
  rfl

/--
What the document of an error is: the template with the values of its markers, of which an escaped text and a
literal alone depend on the message.
-/
structure Shows (pieces : List Piece) (generation : Int) (opening middle closing : List Char) (message : String) :
    Prop where
  replaced : (renderFallback message generation).toList =
    filled (fallbackMarkers generation ++ messageMarkers message) pieces
  framed : (renderFallback message generation).toList = opening ++
    (messageElement (textOfDocument message).toList ++
      (middle ++ (messageArgument (scriptString message).toList ++ closing)))
  text : IsEscaped (textOfDocument message).toList message
  literal : IsLiteral (scriptString message).toList (.str message)
  angles : (renderFallback message generation).toList.filter (· == '<') =
    (opening ++ (messageElement [] ++ (middle ++ (messageArgument [] ++ closing)))).filter (· == '<')

theorem filter_messageElement {text : List Char} (h : ∀ c ∈ text, c ≠ '<') :
    (messageElement text).filter (· == '<') = (messageElement []).filter (· == '<') := by
  unfold messageElement
  iterate 4 rw [List.filter_append]
  rw [filter_angle h, List.filter_nil]

theorem filter_messageArgument {literal : List Char} (h : ∀ c ∈ literal, c ≠ '<') :
    (messageArgument literal).filter (· == '<') = (messageArgument []).filter (· == '<') := by
  unfold messageArgument
  iterate 4 rw [List.filter_append]
  rw [filter_angle h, List.filter_nil]

theorem exists_shows {pieces : List Piece} (hwritten : written pieces = Template.fallback.toList)
    (hcut : IsCut fallbackNames pieces) (hdistinct : (pieces.filterMap Piece.name?).Nodup)
    (hrows : occursBefore messagePieces (occursBefore argumentPieces fun _ => true) pieces = true)
    (generation : Int) :
    ∃ opening middle closing, ∀ message, Shows pieces generation opening middle closing message := by
  obtain ⟨front, later, rfl, hlater⟩ := exists_of_occursBefore hrows
  obtain ⟨middle, rest, rfl, -⟩ := exists_of_occursBefore hlater
  refine ⟨filled (fallbackMarkers generation) front, filled (fallbackMarkers generation) middle,
    filled (fallbackMarkers generation) rest, fun message => ?_⟩
  have htext : Piece.marker "__MESSAGE__" ∉ front ∧
      Piece.marker "__MESSAGE__" ∉ middle ++ argumentPieces ++ rest :=
    not_mem_around hdistinct (List.mem_append_right _ List.mem_cons_self)
  have hliteral : Piece.marker "__MESSAGE_JSON__" ∉ front ++ messagePieces ++ middle ∧
      Piece.marker "__MESSAGE_JSON__" ∉ rest := by
    apply not_mem_around
    · rw [List.append_assoc (front ++ messagePieces ++ middle), List.append_assoc (front ++ messagePieces)]
      rw [List.append_assoc middle] at hdistinct
      exact hdistinct
    · exact List.mem_append_right _ List.mem_cons_self
  simp only [List.mem_append, not_or] at htext hliteral
  have habsent {pieces : List Piece} (hplain : Piece.marker "__MESSAGE__" ∉ pieces)
      (hquoted : Piece.marker "__MESSAGE_JSON__" ∉ pieces) :
      filled (fallbackMarkers generation ++ messageMarkers message) pieces =
        filled (fallbackMarkers generation) pieces := by
    apply filled_of_not_mem
    intro name hname
    simp only [messageMarkers, List.map_cons, List.map_nil, List.mem_cons, List.not_mem_nil, or_false] at hname
    rcases hname with rfl | rfl
    · exact hquoted
    · exact hplain
  have hnames : (fallbackMarkers generation ++ messageMarkers message).names = fallbackNames := rfl
  have hreplaced : (renderFallback message generation).toList =
      filled (fallbackMarkers generation ++ messageMarkers message)
        (front ++ messagePieces ++ (middle ++ argumentPieces ++ rest)) :=
    fill_of_isCut hnames (by decide) (by decide) hcut hwritten.symm
  have hframed := hreplaced
  rw [filled_append, filled_append, filled_append, filled_append, filled_messagePieces, filled_argumentPieces,
    habsent htext.1 hliteral.1.1.1, habsent htext.2.1.1 hliteral.1.2, habsent htext.2.2 hliteral.2,
    List.append_assoc, List.append_assoc] at hframed
  have hescaped := isEscaped_textOfDocument message
  have hquoted := isLiteral_scriptString message
  refine ⟨hreplaced, hframed, hescaped, hquoted, ?_⟩
  rw [hframed]
  iterate 8 rw [List.filter_append]
  rw [filter_messageElement fun c hc => (hescaped.bare c hc).1,
    filter_messageArgument fun c hc => (hquoted.inert c hc).1]

/-! ## Every source and every message -/

end ComponentBuilder.Preview
