import ComponentBuilder.Proofs.Json.Reading
import ComponentBuilder.Proofs.Preview.Cutting

/-!
# Inert texts

How a text of the user gets into a document.  In a script it is a JSON literal on one line that cannot end the
script and reads as the text; in the body it is spelled with references and holds no bracket and no quote.
-/

namespace ComponentBuilder

/-! ## Texts on one line -/

namespace Json

theorem printable_controlEscape {n : Nat} (h : n < 32) :
    ∀ d ∈ controlEscape n, 32 ≤ d.toNat ∧ d ≠ '<' ∧ d.toNat < 128 := by
  have hhex : ∀ n < 16, 32 ≤ (hexDigit n).toNat ∧ hexDigit n ≠ '<' ∧ (hexDigit n).toNat < 128 := by decide
  have hfront : ∀ d ∈ ['\\', 'u', '0', '0'], 32 ≤ d.toNat ∧ d ≠ '<' ∧ d.toNat < 128 := by decide
  intro d hd
  have hsplit : controlEscape n = ['\\', 'u', '0', '0'] ++ [hexDigit (n / 16), hexDigit (n % 16)] := rfl
  rw [hsplit, List.mem_append, List.mem_pair] at hd
  rcases hd with hd | rfl | rfl
  · exact hfront d hd
  · exact hhex _ (by omega)
  · exact hhex _ (by omega)

/-- Nothing in the text of a character is a control character, and an escape has no angle bracket. -/
theorem printable_escapeChar {c d : Char} (h : d ∈ escapeChar c) :
    32 ≤ d.toNat ∧ (d = c ∨ d ≠ '<' ∧ d.toNat < 128) := by
  have hletters : ∀ e ∈ ['"', '\\', 'n', 'r', 't', 'b', 'f'], ∀ d ∈ ['\\', e],
      32 ≤ d.toNat ∧ d ≠ '<' ∧ d.toNat < 128 := by decide
  have hpair (e : Char) (he : e ∈ ['"', '\\', 'n', 'r', 't', 'b', 'f']) (hd : d ∈ ['\\', e]) :
      32 ≤ d.toNat ∧ (d = c ∨ d ≠ '<' ∧ d.toNat < 128) :=
    ⟨(hletters e he d hd).1, .inr (hletters e he d hd).2⟩
  unfold escapeChar at h
  split_ifs at h with hquote hback hplain
  case pos => exact hpair _ (by decide) h
  case pos => exact hpair _ (by decide) h
  case pos =>
    obtain rfl := List.mem_singleton.1 h
    exact ⟨hplain, .inl rfl⟩
  case neg =>
    obtain ⟨hcontrol, hascii⟩ := printable_controlEscape (by omega) d h
    exact ⟨hcontrol, .inr hascii⟩
  all_goals exact hpair _ (by decide) h

theorem printable_quote {s : List Char} {c : Char} (h : c ∈ quote s) : 32 ≤ c.toNat := by
  unfold quote at h
  simp only [List.mem_cons, List.mem_append, List.mem_flatMap, List.not_mem_nil, or_false] at h
  rcases h with rfl | ⟨d, -, hd⟩ | rfl
  · decide
  · exact (printable_escapeChar hd).1
  · decide

theorem printable_toString {n : Int} {c : Char} (h : c ∈ (toString n).toList) : 32 ≤ c.toNat := by
  rw [toList_toString, List.mem_append] at h
  rcases h with hsign | hdigit
  · split at hsign
    · obtain rfl := List.mem_singleton.1 hsign
      decide
    · cases hsign
  · have hc := isDigit_of_mem_toDigits hdigit
    simp only [Char.isDigit, Bool.and_eq_true, decide_eq_true_eq] at hc
    have hle : 48 ≤ c.val.toNat := hc.1
    exact Nat.le_trans (by decide) hle

/-- A text of JSON all of whose characters are from the blank on. -/
def IsPrintable (text : List Char) : Prop :=
  ∀ c ∈ text, 32 ≤ c.toNat

namespace IsPrintable

theorem nil : IsPrintable [] := fun _ h => nomatch h

theorem cons {c : Char} {text : List Char} (hc : 32 ≤ c.toNat) (htext : IsPrintable text) :
    IsPrintable (c :: text) :=
  List.forall_mem_cons.2 ⟨hc, htext⟩

theorem append {text rest : List Char} (htext : IsPrintable text) (hrest : IsPrintable rest) :
    IsPrintable (text ++ rest) :=
  List.forall_mem_append.2 ⟨htext, hrest⟩

theorem quote (s : List Char) : IsPrintable (quote s) :=
  fun _ => printable_quote

theorem word : ∀ word ∈ ["null", "true", "false"], IsPrintable word.toList := by
  unfold IsPrintable
  decide

/-- The compact layout breaks no line. -/
theorem lineBreak (level : Nat) : IsPrintable (Layout.compact.lineBreak level) :=
  .nil

theorem colon : IsPrintable Layout.compact.colon :=
  .cons (by decide) .nil

end IsPrintable

mutual

/-- The compact text of a value is on one line. -/
theorem printable_render (level : Nat) (value : Json) (h : value.Legible) :
    IsPrintable (render .compact level value) :=
  match value, h with
  | .null, _ => IsPrintable.word "null" (by decide)
  | .bool true, _ => IsPrintable.word "true" (by decide)
  | .bool false, _ => IsPrintable.word "false" (by decide)
  | .int _, _ => fun _ hc => printable_toString hc
  | .str s, _ => .quote s.toList
  | .torn, _ => .quote _
  | .arr [], _ => .cons (by decide) (.cons (by decide) .nil)
  | .obj [], _ => .cons (by decide) (.cons (by decide) .nil)
  | .arr (item :: items), h => by
      have hitem := printable_render (level + 1) item h.1
      have hitems := printable_renderItems (level + 1) items h.2
      have hend : IsPrintable [']'] := .cons (by decide) .nil
      exact .cons (by decide)
        (((((IsPrintable.lineBreak _).append hitem).append hitems).append (.lineBreak _)).append hend)
  | .obj ((name, value) :: fields), h => by
      have hvalue := printable_render (level + 1) value h.2.1
      have hfields := printable_renderFields (level + 1) fields h.2.2
      have hname := ((IsPrintable.lineBreak (level + 1)).append (.quote name.toList)).append .colon
      have hend : IsPrintable ['\x7d'] := .cons (by decide) .nil
      exact .cons (by decide) ((((hname.append hvalue).append hfields).append (.lineBreak _)).append hend)
termination_by structural value

theorem printable_renderItems (level : Nat) (items : List Json) (h : LegibleItems items) :
    IsPrintable (renderItems .compact level items) :=
  match items, h with
  | [], _ => .nil
  | item :: rest, h => by
      have hitem := printable_render level item h.1
      have hrest := printable_renderItems level rest h.2
      exact .cons (by decide) (((IsPrintable.lineBreak _).append hitem).append hrest)
termination_by structural items

theorem printable_renderFields (level : Nat) (fields : List (String × Json)) (h : LegibleFields fields) :
    IsPrintable (renderFields .compact level fields) :=
  match fields, h with
  | [], _ => .nil
  | (name, value) :: rest, h => by
      have hvalue := printable_render level value h.1
      have hrest := printable_renderFields level rest h.2
      have hname := ((IsPrintable.lineBreak level).append (.quote name.toList)).append .colon
      exact .cons (by decide) ((hname.append hvalue).append hrest)
termination_by structural fields

end

end Json

namespace Preview

/-! ## Literals of a script -/

section Script

/-- A character that neither ends a script nor a line of it. -/
def IsInert (c : Char) : Prop :=
  c ≠ '<' ∧ c ≠ '\n' ∧ c ≠ '\r' ∧ c.toNat ≠ 0x2028 ∧ c.toNat ≠ 0x2029

instance : DecidablePred IsInert := fun c =>
  inferInstanceAs (Decidable (c ≠ '<' ∧ c ≠ '\n' ∧ c ≠ '\r' ∧ c.toNat ≠ 0x2028 ∧ c.toNat ≠ 0x2029))

theorem escapeForScript_plain {c : Char} (hangle : c ≠ '<') (hline : c.toNat ≠ 0x2028) (hpara : c.toNat ≠ 0x2029) :
    escapeForScript c = [c] := by
  rw [escapeForScript, if_neg hangle, if_neg hline, if_neg hpara]

theorem isInert_of_mem {c d : Char} (hc : 32 ≤ c.toNat) (hd : d ∈ escapeForScript c) : IsInert d := by
  have hescapes : ∀ text ∈ ["\\u003c", "\\u2028", "\\u2029"], ∀ d ∈ text.toList, IsInert d := by decide +kernel
  unfold escapeForScript at hd
  split_ifs at hd with hangle hline hpara
  · exact hescapes _ (by decide) d hd
  · exact hescapes _ (by decide) d hd
  · exact hescapes _ (by decide) d hd
  · obtain rfl := List.mem_singleton.1 hd
    refine ⟨hangle, ?_, ?_, hline, hpara⟩
    · rintro rfl
      exact absurd hc (by decide)
    · rintro rfl
      exact absurd hc (by decide)

/-- An escape of a script reads as the character, for no backslash of the text stands before it. -/
theorem reads_escapeForScript (c : Char) (halves torn : Bool) (seen rest : List Char) (fuel : Nat) :
    Json.Reader.stringFuel halves torn seen (fuel + 1) ((Json.escapeChar c).flatMap escapeForScript ++ rest) =
      Json.Reader.stringFuel halves torn (c :: seen) fuel rest := by
  have hcode : Char.ofNat c.toNat = c := Char.ofNat_toNat c
  by_cases hangle : c = '<'
  · subst hangle
    exact Json.stringFuel_escape rfl
  by_cases hline : c.toNat = 0x2028
  · rw [hline] at hcode
    rw [← hcode]
    exact Json.stringFuel_escape rfl
  by_cases hpara : c.toNat = 0x2029
  · rw [hpara] at hcode
    rw [← hcode]
    exact Json.stringFuel_escape rfl
  have hplain : (Json.escapeChar c).flatMap escapeForScript = Json.escapeChar c := by
    have hall : ∀ d ∈ Json.escapeChar c, escapeForScript d = [d] := by
      intro d hd
      rcases (Json.printable_escapeChar hd).2 with rfl | ⟨hnot, hascii⟩
      · exact escapeForScript_plain hangle hline hpara
      · exact escapeForScript_plain hnot (by omega) (by omega)
    rw [List.flatMap_congr hall, List.flatMap_singleton']
  rw [hplain]
  exact Json.reads_escapeChar c halves torn seen rest fuel

theorem respelling_escapeForScript : Json.Respelling escapeForScript where
  ascii c hangle hascii := escapeForScript_plain hangle (by omega) (by omega)
  nonempty c := by
    unfold escapeForScript
    repeat' split
    all_goals simp
  reads := reads_escapeForScript

/-- A JSON text of a value that stands on one line of a script and does not end it. -/
structure IsLiteral (text : List Char) (value : Json) : Prop where
  reads : Json.read? Json.storedLimits text = some value
  inert : ∀ c ∈ text, IsInert c

theorem isLiteral_render {value : Json} (hlegible : value.Legible)
    (hprint : Json.refusal? Json.printDepth value = none) :
    IsLiteral ((value.render .compact 0).flatMap escapeForScript) value where
  reads := Json.read?_respelled respelling_escapeForScript .compact hlegible hprint
  inert d hd := by
    obtain ⟨c, hc, hd⟩ := List.mem_flatMap.1 hd
    exact isInert_of_mem (Json.printable_render 0 value hlegible c hc) hd

theorem isLiteral_scriptString (text : String) : IsLiteral (scriptString text).toList (.str text) := by
  rw [scriptString, String.toList_ofList]
  have hliteral := @isLiteral_render (.str text) trivial rfl
  exact hliteral

/-- Bindings as pairs of a name and its target. -/
def bindingPairs (bindings : List Binding) : Json :=
  .arr (bindings.map fun binding => .arr [.str binding.name, .str binding.target.word])

theorem refusalItems?_pairs (depth : Nat) (bindings : List Binding) :
    Json.refusalItems? (depth + 1)
      (bindings.map fun binding => .arr [.str binding.name, .str binding.target.word]) = none := by
  induction bindings with
  | nil => rfl
  | cons binding rest ih =>
      rw [List.map_cons, Json.refusalItems?, ih]
      rfl

theorem isLiteral_scriptBindings (bindings : List Binding) :
    IsLiteral (scriptBindings bindings).toList (bindingPairs bindings) := by
  rw [scriptBindings, String.toList_ofList]
  apply isLiteral_render
  · apply Json.legibleItems_of_forall
    intro item hitem
    obtain ⟨binding, -, rfl⟩ := List.mem_map.1 hitem
    exact ⟨trivial, trivial, trivial⟩
  · exact refusalItems?_pairs _ bindings

end Script

/-! ## Text of a document -/

section Body

/-- The references of a document that stand for characters of its syntax. -/
def references : Markers :=
  [("&amp;", "&"), ("&lt;", "<"), ("&gt;", ">"), ("&quot;", "\""), ("&#x27;", "'")]

/-- Read the references of a text. -/
def unescape (text : String) : String :=
  fill text references

/-- The piece of a character in the text of a document. -/
def textPiece (c : Char) : Piece :=
  if c ∈ ['&', '<', '>', '"', '\''] then .marker (String.ofList (escapeForText c)) else .character c

theorem source_textPiece (c : Char) : (textPiece c).source = escapeForText c := by
  unfold textPiece
  split_ifs with hmem
  · exact String.toList_ofList
  · simp only [List.mem_cons, List.not_mem_nil, or_false, not_or] at hmem
    obtain ⟨hamp, hlt, hgt, hquote, happ⟩ := hmem
    rw [escapeForText, if_neg hamp, if_neg hlt, if_neg hgt, if_neg hquote, if_neg happ]
    rfl

theorem value_textPiece (c : Char) : (textPiece c).value references = [c] := by
  unfold textPiece
  split_ifs with hmem
  · have hall : ∀ c ∈ ['&', '<', '>', '"', '\''],
        (Piece.marker (String.ofList (escapeForText c))).value references = [c] := by decide +kernel
    exact hall c hmem
  · rfl

/-- No reference begins another, and all begin with the ampersand. -/
theorem references_spec : ∀ name ∈ references.names,
    name.toList.head? = some '&' ∧
      ∀ other ∈ references.names, name.toList <+: other.toList → other.length ≤ name.length := by
  decide +kernel

theorem isCut_text (text : List Char) : IsCut references.names (text.map textPiece) := by
  induction text with
  | nil => exact .nil
  | cons c rest ih =>
      rw [List.map_cons]
      by_cases hmem : c ∈ ['&', '<', '>', '"', '\'']
      · have hname : ∀ c ∈ ['&', '<', '>', '"', '\''], String.ofList (escapeForText c) ∈ references.names := by
          decide +kernel
        rw [textPiece, if_pos hmem]
        refine .marker (hname c hmem) (fun other hother hstart => ?_) ih
        by_contra hlonger
        have hbegins := List.prefix_of_prefix_length_le (List.prefix_append _ _) hstart
          (by simp only [String.length_toList]; omega)
        exact hlonger ((references_spec _ (hname c hmem)).2 other hother hbegins)
      · rw [textPiece, if_neg hmem]
        refine .character (fun name hname hstart => ?_) ih
        have hhead := (references_spec name hname).1
        obtain ⟨tail, htail⟩ := hstart
        cases hchars : name.toList with
        | nil => simp [hchars] at hhead
        | cons d front =>
            rw [hchars, List.cons_append] at htail
            rw [hchars, List.head?_cons, (List.cons.inj htail).1] at hhead
            exact hmem (Option.some.inj hhead ▸ List.mem_cons_self)

/-- Escaped text of a document reads as the text that was escaped. -/
theorem unescape_textOfDocument (text : String) : unescape (textOfDocument text) = text := by
  apply String.toList_inj.1
  have hwritten : (textOfDocument text).toList = written (text.toList.map textPiece) := by
    rw [textOfDocument, String.toList_ofList, written, List.flatMap_map]
    exact List.flatMap_congr fun c _ => (source_textPiece c).symm
  rw [unescape, fill_of_isCut rfl (by decide) (by decide) (isCut_text text.toList) hwritten, filled,
    List.flatMap_map]
  rw [List.flatMap_congr fun c _ => value_textPiece c, List.flatMap_singleton']

/-- Escaped text has no bracket and no quote. -/
theorem mem_textOfDocument {text : String} {d : Char} (h : d ∈ (textOfDocument text).toList) :
    d ≠ '<' ∧ d ≠ '>' ∧ d ≠ '"' ∧ d ≠ '\'' := by
  have hescapes : ∀ text ∈ ["&amp;", "&lt;", "&gt;", "&quot;", "&#x27;"], ∀ d ∈ text.toList,
      d ≠ '<' ∧ d ≠ '>' ∧ d ≠ '"' ∧ d ≠ '\'' := by
    decide +kernel
  rw [textOfDocument, String.toList_ofList] at h
  obtain ⟨c, -, hd⟩ := List.mem_flatMap.1 h
  unfold escapeForText at hd
  split_ifs at hd with hamp hlt hgt hquote happ
  case neg =>
    obtain rfl := List.mem_singleton.1 hd
    exact ⟨hlt, hgt, hquote, happ⟩
  all_goals exact hescapes _ (by decide) d hd

theorem ampersand_escapeForText {c : Char} {front rest : List Char} (h : escapeForText c = front ++ '&' :: rest) :
    front = [] ∧ String.ofList (escapeForText c) ∈ references.names := by
  by_cases hmem : c ∈ ['&', '<', '>', '"', '\'']
  · have hall : ∀ c ∈ ['&', '<', '>', '"', '\''],
        '&' ∉ (escapeForText c).tail ∧ String.ofList (escapeForText c) ∈ references.names := by decide +kernel
    obtain ⟨htail, hname⟩ := hall c hmem
    refine ⟨?_, hname⟩
    cases front with
    | nil => rfl
    | cons d front =>
        rw [h, List.cons_append, List.tail_cons] at htail
        exact absurd (List.mem_append_right front List.mem_cons_self) htail
  · have hsource := source_textPiece c
    rw [textPiece, if_neg hmem, Piece.source] at hsource
    have hamp : '&' ∈ [c] := by
      rw [hsource, h]
      exact List.mem_append_right front List.mem_cons_self
    exact absurd (List.mem_singleton.1 hamp ▸ List.mem_cons_self) hmem

/-- Every ampersand of an escaped text begins a reference. -/
theorem reference_of_ampersand {text front rest : List Char}
    (h : text.flatMap escapeForText = front ++ '&' :: rest) :
    ∃ name ∈ references.names, name.toList <+: '&' :: rest := by
  induction text generalizing front with
  | nil => simp at h
  | cons c text ih =>
      rw [List.flatMap_cons, List.append_eq_append_iff] at h
      rcases h with ⟨between, -, hlater⟩ | ⟨between, hhere, hrest⟩
      · exact ih hlater
      · cases between with
        | nil =>
            have hnext : text.flatMap escapeForText = [] ++ '&' :: rest := hrest.symm
            exact ih hnext
        | cons d between =>
            obtain ⟨rfl, htail⟩ := List.cons.inj hrest
            obtain ⟨rfl, hname⟩ := ampersand_escapeForText hhere
            refine ⟨_, hname, ?_⟩
            rw [String.toList_ofList, hhere, htail]
            exact ⟨text.flatMap escapeForText, rfl⟩

/-- A text of a document that says a message in references and in characters without a meaning of their own. -/
structure IsEscaped (text : List Char) (message : String) : Prop where
  reads : unescape (String.ofList text) = message
  bare : ∀ d ∈ text, d ≠ '<' ∧ d ≠ '>' ∧ d ≠ '"' ∧ d ≠ '\''
  ampersands : ∀ front rest, text = front ++ '&' :: rest → ∃ name ∈ references.names, name.toList <+: '&' :: rest

theorem isEscaped_textOfDocument (message : String) : IsEscaped (textOfDocument message).toList message where
  reads := by
    rw [String.ofList_toList]
    exact unescape_textOfDocument message
  bare d hd := mem_textOfDocument hd
  ampersands front rest h := by
    rw [textOfDocument, String.toList_ofList] at h
    exact reference_of_ampersand h

end Body

end Preview

end ComponentBuilder
