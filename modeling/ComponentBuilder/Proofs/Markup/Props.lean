import ComponentBuilder.Proofs.Markup.AttributePieces
import ComponentBuilder.Proofs.Markup.Repetition

/-!
# The props of a tag

A list of attributes denotes props: its items are read from left to right, a named attribute sets its name,
a spread sets the names of its object, and a later setting goes before an earlier one.  What is read of the
list sets the same props in its own order, except where a repeated key has changed places with a spread.
-/

namespace ComponentBuilder.Markup.AttributeList

open Text Scan

variable {α : Type}

/-! ## Lists of items with blanks between them -/

/-- The items of a tag: a name, a name with a string or an expression, and a spread. -/
inductive Piece.IsItem : Piece → Prop
  | bare {name : List Char} (hname : IsName name) : IsItem (.bare name)
  | quoted {name value : List Char} {quote : Char} (hname : IsName name) (hquote : isTagQuote quote = true)
      (hvalue : quote ∉ value) : IsItem (.valued name [] [] (.quoted quote value))
  | braced {name source : List Char} (hname : IsName name) (hsource : IsExpression source) :
      IsItem (.valued name [] [] (.braced source))
  | spread {source : List Char} (hsource : IsExpression source) (hdots : "\x7b...".toList <+: source) :
      IsItem (.spread source)

/-- Items with blanks around them, at least one between two of them. -/
inductive Separated : List Piece → Prop
  | nil : Separated []
  | blank {c : Char} {pieces : List Piece} (hblank : isBlank c = true) (hrest : Separated pieces) :
      Separated (.blank c :: pieces)
  | item {piece : Piece} {pieces : List Piece} (hitem : piece.IsItem)
      (hnext : ∀ next, pieces.head? = some next → ∃ c, next = .blank c) (hrest : Separated pieces) :
      Separated (piece :: pieces)

theorem isName_singleton {c : Char} (h : isNameChar c = true) : IsName [c] :=
  ⟨by simp, by simpa using h⟩

theorem Piece.IsItem.head {piece : Piece} (h : piece.IsItem) :
    ∃ c rest, piece.text = c :: rest ∧ isBlank c = false ∧ c ≠ '=' := by
  cases h with
  | bare hname | quoted hname | braced hname =>
      obtain ⟨c, rest, rfl, hc⟩ := hname.exists_cons
      exact ⟨c, _, rfl, isBlank_eq_false_of_isNameChar hc, ne_of_passes hc (by decide)⟩
  | spread hsource =>
      obtain ⟨inside, rfl⟩ := hsource.eq_cons
      exact ⟨'\x7b', inside, rfl, by decide, by decide⟩

/-- After the blanks in front of them, items do not begin with an equals sign. -/
theorem Separated.head?_trimStart {pieces : List Piece} (h : Separated pieces) :
    (trimStart (spell pieces)).head? ≠ some '=' := by
  induction h with
  | nil => simp [spell, trimStart]
  | @blank c pieces hblank _ ih => simpa [spell_cons, Piece.text, trimStart, hblank] using ih
  | @item piece pieces hitem =>
      obtain ⟨c, rest, htext, hblank, hne⟩ := hitem.head
      simp [spell_cons, htext, trimStart, hblank, hne]

theorem Separated.head?_spell {pieces : List Piece} (h : Separated pieces)
    (hnext : ∀ next, pieces.head? = some next → ∃ c, next = .blank c) :
    ∀ c, (spell pieces).head? = some c → isBlank c = true := by
  intro c hc
  cases h with
  | nil => simp [spell] at hc
  | @blank d pieces hblank =>
      obtain rfl : d = c := by simpa [spell_cons, Piece.text] using hc
      exact hblank
  | @item piece pieces hitem =>
      obtain ⟨d, rfl⟩ := hnext piece rfl
      cases hitem

/-- Items with blanks between them are read one after the other. -/
theorem Separated.listing {pieces : List Piece} (h : Separated pieces) : Listing pieces := by
  induction h with
  | nil => exact .nil
  | blank hblank _ ih => exact .cons (.blank hblank) ih
  | @item piece pieces hitem hnext hrest ih =>
      refine .cons ?_ ih
      cases hitem with
      | bare hname =>
          have hstops : Stops isNameChar (spell pieces) := fun c hc =>
            isNameChar_eq_false_of_isBlank (hrest.head?_spell hnext c hc)
          exact .name hname hstops hrest.head?_trimStart
      | quoted hname hquote hvalue => exact .valued hname (by simp) (by simp) (.quoted hquote hvalue)
      | braced hname hsource => exact .valued hname (by simp) (by simp) (.braced hsource)
      | spread hsource => exact .spread hsource

/-! ## The props of the items -/

section Props

variable (meaning : AttributeValue → α) (spreads : String → String → Option α)

/-- What an item sets: a spread the names of its object, any other its own name. -/
def Piece.sets : Piece → String → Option α
  | .blank _, _ => none
  | .spread source, name => spreads (String.ofList source) name
  | .bare token, name => if String.ofList token = name then some (meaning (.flag true)) else none
  | .valued token _ _ given, name => if String.ofList token = name then some (meaning given.value) else none

/-- The props that a list of items denotes. -/
def propsOf (pieces : List Piece) : String → Option α :=
  together (pieces.map (Piece.sets meaning spreads))

variable {meaning spreads}

theorem isSpread_of_isName {name : List Char} (h : IsName name) : isSpread (String.ofList name) = false := by
  obtain ⟨c, rest, rfl, hc⟩ := h.exists_cons
  have hbrace : c ≠ '\x7b' := ne_of_passes hc (by decide)
  simp [isSpread, hbrace]

theorem isSpread_of_isExpression {source : List Char} (h : IsExpression source) :
    isSpread (String.ofList source) = true := by
  obtain ⟨inside, rfl⟩ := h.eq_cons
  simp [isSpread]

theorem Piece.IsItem.sets_eq {piece : Piece} (h : piece.IsItem) :
    ∃ entry, piece.entries = [entry] ∧ piece.sets meaning spreads = AttributeList.sets meaning spreads entry := by
  cases h with
  | bare hname | quoted hname | braced hname =>
      refine ⟨_, rfl, funext fun name => ?_⟩
      rw [AttributeList.sets, isSpread_of_isName hname]
      rfl
  | spread hsource =>
      refine ⟨_, rfl, funext fun name => ?_⟩
      rw [AttributeList.sets, isSpread_of_isExpression hsource]
      rfl

theorem propsOf_eq {pieces : List Piece} (h : Separated pieces) :
    propsOf meaning spreads pieces = props meaning spreads (entriesOf pieces) := by
  induction h with
  | nil => rfl
  | @blank c pieces hblank _ ih =>
      funext name
      rw [propsOf, List.map_cons, together_cons, ← propsOf, ih]
      exact Option.or_none
  | @item piece pieces hitem _ _ ih =>
      obtain ⟨entry, hentry, hsets⟩ := @Piece.IsItem.sets_eq _ meaning spreads _ hitem
      funext name
      rw [propsOf, List.map_cons, together_cons, ← propsOf, ih, entriesOf_cons, hentry, hsets, props, props,
        List.singleton_append, List.map_cons, together_cons]

end Props

/-- The names and spreads of a list of items, in order. -/
def keysOf (pieces : List Piece) : List String :=
  (entriesOf pieces).map Prod.fst

instance : Nontrivial AttributeValue :=
  ⟨.flag true, .flag false, by decide⟩

/-- The attributes that are read of a list of items set its props, whatever its spreads stand for, exactly when
no key encloses another one and a spread is among the two. -/
theorem read_keeps_props_iff [Nontrivial α] {pieces : List Piece} (h : Separated pieces)
    (meaning : AttributeValue → α) :
    ∃ attributes, read (spell pieces) = .ok attributes ∧
      ((∀ spreads, props meaning spreads attributes.entries = propsOf meaning spreads pieces) ↔
        ∀ a ∈ keysOf pieces, ∀ b ∈ keysOf pieces, Encloses (keysOf pieces) a b →
          isSpread a = false ∧ isSpread b = false) := by
  refine ⟨_, h.listing.read_eq, ?_⟩
  simp only [propsOf_eq h]
  constructor
  · intro hsame a _ b _ hencloses
    by_contra hspreads
    have hspread : isSpread a = true ∨ isSpread b = true := by
      rw [not_and_or, Bool.not_eq_false, Bool.not_eq_false] at hspreads
      exact hspreads
    obtain ⟨spreads, hne⟩ := exists_props_read_ne meaning hencloses hspread
    exact hne (hsame spreads)
  · intro hkeys spreads
    exact props_read_eq fun a b hencloses => hkeys a hencloses.mem_left b hencloses.mem hencloses

/-- The items of a list that gives a name twice behind a spread. -/
def repeatedItems : List Piece :=
  [.spread "\x7b...s\x7d".toList, .blank ' ', .valued ['a'] [] [] (.quoted '"' ['1']), .blank ' ',
    .valued ['a'] [] [] (.braced "\x7b2\x7d".toList), .blank ' ', .bare ['b']]

theorem read_keeps_props_repeated :
    spell repeatedItems = "\x7b...s\x7d a=\"1\" a=\x7b2\x7d b".toList ∧ Separated repeatedItems ∧
      ∃ attributes, read (spell repeatedItems) = .ok attributes ∧
        ∀ spreads, props id spreads attributes.entries = propsOf id spreads repeatedItems := by
  have hseparated : Separated repeatedItems :=
    .item (.spread (by decide) (by decide)) (by simp) <| .blank (by decide) <|
      .item (.quoted (isName_singleton (by decide)) (by decide) (by decide)) (by simp) <| .blank (by decide) <|
        .item (.braced (isName_singleton (by decide)) (by decide)) (by simp) <| .blank (by decide) <|
          .item (.bare (isName_singleton (by decide))) (by simp) .nil
  obtain ⟨attributes, hread, hprops⟩ := read_keeps_props_iff hseparated id
  exact ⟨by decide, hseparated, attributes, hread, hprops.2 (by decide)⟩

/-- The items of a list that gives a name in front of a spread and again behind it. -/
def movedItems : List Piece :=
  [.valued ['x'] [] [] (.quoted '"' ['1']), .blank ' ', .spread "\x7b...s\x7d".toList, .blank ' ',
    .valued ['x'] [] [] (.quoted '"' ['2'])]

/-- A name that is given again behind a spread stays in front of it, so the object of the spread takes it. -/
theorem read_moves_name :
    spell movedItems = "x=\"1\" \x7b...s\x7d x=\"2\"".toList ∧ Separated movedItems ∧
      (∃ attributes, read (spell movedItems) = .ok attributes ∧
        props id (fun _ _ => some (.text "3")) attributes.entries "x" = some (.text "3")) ∧
      propsOf id (fun _ _ => some (.text "3")) movedItems "x" = some (.text "2") := by
  have hseparated : Separated movedItems :=
    .item (.quoted (isName_singleton (by decide)) (by decide) (by decide)) (by simp) <| .blank (by decide) <|
      .item (.spread (by decide) (by decide)) (by simp) <| .blank (by decide) <|
        .item (.quoted (isName_singleton (by decide)) (by decide) (by decide)) (by simp) .nil
  exact ⟨by decide, hseparated, ⟨_, rfl, by decide⟩, by decide⟩

end ComponentBuilder.Markup.AttributeList
