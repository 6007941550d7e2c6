import ComponentBuilder.Proofs.Markup.AttributeItem

/-!
# Attribute lists put together from pieces

An attribute list whose tokens and unquoted values hold neither quotes nor braces falls into pieces that a
reader of strings and braces alone cuts in the same places.  `Listing` says which pieces may stand in a row;
the list that they spell reads as their entries.
-/

namespace ComponentBuilder.Markup.AttributeList

open Text Scan

/-! ## Pieces -/

/-- What an attribute is given. -/
inductive Given where
  | quoted (quote : Char) (value : List Char)
  | braced (source : List Char)
  | unquoted (value : List Char)

/-- A piece of an attribute list. -/
inductive Piece where
  /-- A blank between items. -/
  | blank (c : Char)
  /-- An expression that stands by itself. -/
  | spread (source : List Char)
  /-- A name without a value, or a token that is no name. -/
  | bare (token : List Char)
  /-- A name with the blanks around the equals sign and the value. -/
  | valued (name gap gap' : List Char) (given : Given)

namespace Given

def text : Given → List Char
  | quoted quote value => quote :: (value ++ [quote])
  | braced source => source
  | unquoted value => value

def value : Given → AttributeValue
  | quoted _ value => .text (String.ofList value)
  | braced source => .expression (String.ofList source)
  | unquoted value => .text (String.ofList value)

end Given

namespace Piece

def text : Piece → List Char
  | blank c => [c]
  | spread source => source
  | bare token => token
  | valued name gap gap' given => name ++ (gap ++ '=' :: (gap' ++ given.text))

def entries : Piece → List (String × AttributeValue)
  | blank _ => []
  | spread source => [(String.ofList source, .flag true)]
  | bare token => [(String.ofList token, .flag true)]
  | valued name _ _ given => [(String.ofList name, given.value)]

end Piece

def spell (pieces : List Piece) : List Char :=
  pieces.flatMap Piece.text

def entriesOf (pieces : List Piece) : List (String × AttributeValue) :=
  pieces.flatMap Piece.entries

theorem spell_cons (piece : Piece) (pieces : List Piece) :
    spell (piece :: pieces) = piece.text ++ spell pieces := rfl

theorem entriesOf_cons (piece : Piece) (pieces : List Piece) :
    entriesOf (piece :: pieces) = piece.entries ++ entriesOf pieces := rfl

/-! ## Pieces in a row -/

/-- A token with no blank, quote or brace. -/
structure Plain (token : List Char) : Prop where
  nonempty : token ≠ []
  solid : ∀ c ∈ token, isBlank c = false
  quotes : ∀ c ∈ token, isTagQuote c = false
  braces : '\x7b' ∉ token

/-- The values that may stand before a text. -/
inductive Given.Before (rest : List Char) : Given → Prop
  | quoted {quote : Char} {value : List Char} (hquote : isTagQuote quote = true) (hvalue : quote ∉ value) :
      Before rest (.quoted quote value)
  | braced {source : List Char} (hsource : IsExpression source) : Before rest (.braced source)
  | unquoted {value : List Char} (hvalue : Plain value) (hrest : Stops (!isBlank ·) rest) :
      Before rest (.unquoted value)

/-- The pieces that may stand before a text. -/
inductive Piece.Before (rest : List Char) : Piece → Prop
  | blank {c : Char} (hblank : isBlank c = true) : Before rest (.blank c)
  | spread {source : List Char} (hsource : IsExpression source) : Before rest (.spread source)
  | name {name : List Char} (hname : IsName name) (hrest : Stops isNameChar rest)
      (hequals : (trimStart rest).head? ≠ some '=') : Before rest (.bare name)
  | token {token : List Char} (htoken : Plain token) (hname : token.head?.any isNameChar = false)
      (hrest : Stops (!isBlank ·) rest) : Before rest (.bare token)
  | valued {name gap gap' : List Char} {given : Given} (hname : IsName name)
      (hgap : ∀ c ∈ gap, isBlank c = true) (hgap' : ∀ c ∈ gap', isBlank c = true)
      (hgiven : given.Before rest) : Before rest (.valued name gap gap' given)

/-- Pieces each of which may stand before those that follow it. -/
inductive Listing : List Piece → Prop
  | nil : Listing []
  | cons {piece : Piece} {pieces : List Piece} (hpiece : piece.Before (spell pieces))
      (hrest : Listing pieces) : Listing (piece :: pieces)

theorem plain_of_isName {name : List Char} (h : IsName name) : Plain name := by
  have hchar : ∀ c ∈ name, isBlank c = false ∧ isTagQuote c = false ∧ c ≠ '\x7b' := by
    intro c hc
    have hname := h.2 c hc
    exact ⟨isBlank_eq_false_of_isNameChar hname, isTagQuote_eq_false_of_class (by decide) (by decide) hname,
      ne_of_passes hname (by decide)⟩
  exact ⟨h.1, fun c hc => (hchar c hc).1, fun c hc => (hchar c hc).2.1, fun hmem => (hchar _ hmem).2.2 rfl⟩

/-! ## Reading pieces -/

theorem Given.Before.valueItem {rest : List Char} {given : Given} (h : given.Before rest) (name : String)
    {gap : List Char} (hgap : ∀ c ∈ gap, isBlank c = true) :
    ValueItem name (gap ++ (given.text ++ rest)) (name, given.value) rest := by
  cases h with
  | @quoted quote value hquote hvalue =>
      have hitem := @ValueItem.quoted name gap value rest quote hgap hquote hvalue
      simpa [Given.text, Given.value] using hitem
  | braced hsource => exact .braced hgap hsource
  | @unquoted value hvalue hrest =>
      cases value with
      | nil => exact absurd rfl hvalue.nonempty
      | cons c value =>
          refine .unquoted hgap (hvalue.solid c List.mem_cons_self) (hvalue.quotes c List.mem_cons_self) ?_
            (fun d hd => hvalue.solid d (List.mem_cons_of_mem _ hd)) hrest
          rintro rfl
          exact hvalue.braces List.mem_cons_self

theorem Piece.Before.item {rest : List Char} {piece : Piece} (h : piece.Before rest) :
    (∃ c, piece = .blank c ∧ isBlank c = true) ∨
      ∃ entry, piece.entries = [entry] ∧ Item (piece.text ++ rest) entry rest := by
  cases h with
  | @blank c hblank => exact .inl ⟨c, rfl, hblank⟩
  | spread hsource => exact .inr ⟨_, rfl, .spread hsource⟩
  | name hname hrest hequals => exact .inr ⟨_, rfl, .name hname hrest hequals⟩
  | @token token htoken hname hrest =>
      cases token with
      | nil => exact absurd rfl htoken.nonempty
      | cons c token =>
          refine .inr ⟨_, rfl, .token (htoken.solid c List.mem_cons_self) ?_ hname
            (fun d hd => htoken.solid d (List.mem_cons_of_mem _ hd)) hrest⟩
          rintro rfl
          exact htoken.braces List.mem_cons_self
  | @valued name gap gap' given hname hgap hgap' hgiven =>
      have hitem := Item.valued hname hgap (hgiven.valueItem (String.ofList name) hgap')
      refine .inr ⟨_, rfl, ?_⟩
      simpa [Piece.text] using hitem

theorem Items.blank {text : List Char} {entries : List (String × AttributeValue)} {c : Char}
    (hc : isBlank c = true) (h : Items text entries) : Items (c :: text) entries := by
  cases h with
  | nil hblanks => exact .nil (List.forall_mem_cons.2 ⟨hc, hblanks⟩)
  | @cons blanks _ _ _ _ hblanks hitem hrest =>
      exact @Items.cons (c :: blanks) _ _ _ _ (List.forall_mem_cons.2 ⟨hc, hblanks⟩) hitem hrest

/-- Pieces in a row are read as their entries. -/
theorem Listing.items {pieces : List Piece} (h : Listing pieces) : Items (spell pieces) (entriesOf pieces) := by
  induction h with
  | nil => exact @Items.nil [] (by simp)
  | @cons piece pieces hpiece _ ih =>
      rw [spell_cons, entriesOf_cons]
      rcases hpiece.item with ⟨c, rfl, hc⟩ | ⟨entry, hentry, hitem⟩
      · exact ih.blank hc
      · rw [hentry]
        exact @Items.cons [] _ _ entry _ (by simp) hitem ih

theorem Listing.read_eq {pieces : List Piece} (h : Listing pieces) :
    read (spell pieces) = .ok (setAll .empty (entriesOf pieces)) :=
  read_eq_ok_iff.2 ⟨_, h.items, rfl⟩

end ComponentBuilder.Markup.AttributeList
