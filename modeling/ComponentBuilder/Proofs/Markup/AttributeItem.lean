import ComponentBuilder.Markup.AttributeList
import ComponentBuilder.Proofs.Scan.Construct
import ComponentBuilder.Proofs.Text.Span

/-!
# The grammar of attribute lists

An attribute list is a sequence of items with blanks between, in front and behind.  `Item` lists the
forms of an item together with the text that may follow it, `Items` the whole list, and reading
an attribute list succeeds exactly on the lists of this grammar.
-/

namespace ComponentBuilder.Markup.AttributeList

open Text Scan

/-! ## Characters -/

theorem isBlank_eq_false_of_isNameChar {c : Char} (h : isNameChar c = true) : isBlank c = false := by
  simp only [isNameChar, Bool.or_eq_true, beq_iff_eq] at h
  rcases h with (((h | rfl) | rfl) | rfl) | rfl
  · exact isBlank_eq_false_of_isWord h
  all_goals decide

theorem isNameChar_eq_false_of_isBlank {c : Char} (h : isBlank c = true) : isNameChar c = false := by
  by_contra hname
  rw [Bool.not_eq_false] at hname
  rw [isBlank_eq_false_of_isNameChar hname] at h
  simp at h

theorem isNameChar_of_isWord {c : Char} (h : isWord c = true) : isNameChar c = true := by
  simp [isNameChar, h]

/-- A name, possibly followed by blanks, stops before an equals sign. -/
theorem stops_gap_equals {gap : List Char} (hgap : ∀ c ∈ gap, isBlank c = true) (rest : List Char) :
    Stops isNameChar (gap ++ '=' :: rest) := by
  cases gap with
  | nil => exact stops_cons.2 (by decide)
  | cons c gap => exact stops_cons.2 (isNameChar_eq_false_of_isBlank (hgap c (by simp)))

/-! ## Items -/

/-- The name of an attribute. -/
def IsName (name : List Char) : Prop :=
  name ≠ [] ∧ ∀ c ∈ name, isNameChar c = true

theorem IsName.exists_cons {name : List Char} (h : IsName name) :
    ∃ c rest, name = c :: rest ∧ isNameChar c = true := by
  obtain ⟨c, rest, rfl⟩ := List.exists_cons_of_ne_nil h.1
  exact ⟨c, rest, rfl, h.2 c List.mem_cons_self⟩

/-- What may stand after the equals sign of an attribute, its entry, and the text after it. -/
inductive ValueItem (name : String) : List Char → String × AttributeValue → List Char → Prop
  | quoted {gap value after : List Char} {quote : Char} (hgap : ∀ c ∈ gap, isBlank c = true)
      (hquote : isTagQuote quote = true) (hvalue : quote ∉ value) :
      ValueItem name (gap ++ quote :: (value ++ quote :: after)) (name, .text (String.ofList value))
        after
  | braced {gap source after : List Char} (hgap : ∀ c ∈ gap, isBlank c = true)
      (hsource : IsExpression source) :
      ValueItem name (gap ++ (source ++ after)) (name, .expression (String.ofList source)) after
  | unquoted {gap value after : List Char} {c : Char} (hgap : ∀ d ∈ gap, isBlank d = true)
      (hblank : isBlank c = false) (hquote : isTagQuote c = false) (hbrace : c ≠ '\x7b')
      (hvalue : ∀ d ∈ value, isBlank d = false) (hafter : Stops (!isBlank ·) after) :
      ValueItem name (gap ++ (c :: value ++ after)) (name, .text (String.ofList (c :: value))) after

/-- One item in front of a text, the entry it stands for, and the text after it. -/
inductive Item : List Char → String × AttributeValue → List Char → Prop
  | spread {source after : List Char} (hsource : IsExpression source) :
      Item (source ++ after) (String.ofList source, .flag true) after
  | token {c : Char} {token after : List Char} (hblank : isBlank c = false) (hbrace : c ≠ '\x7b')
      (hname : isNameChar c = false) (htoken : ∀ d ∈ token, isBlank d = false)
      (hafter : Stops (!isBlank ·) after) :
      Item (c :: token ++ after) (String.ofList (c :: token), .flag true) after
  | name {name after : List Char} (hname : IsName name) (hafter : Stops isNameChar after)
      (hequals : (trimStart after).head? ≠ some '=') :
      Item (name ++ after) (String.ofList name, .flag true) after
  | valued {name gap text after : List Char} {entry : String × AttributeValue} (hname : IsName name)
      (hgap : ∀ c ∈ gap, isBlank c = true) (hvalue : ValueItem (String.ofList name) text entry after) :
      Item (name ++ (gap ++ '=' :: text)) entry after

/-- A list of items and the entries they stand for. -/
inductive Items : List Char → List (String × AttributeValue) → Prop
  | nil {blanks : List Char} (hblanks : ∀ c ∈ blanks, isBlank c = true) : Items blanks []
  | cons {blanks text after : List Char} {entry : String × AttributeValue}
      {entries : List (String × AttributeValue)} (hblanks : ∀ c ∈ blanks, isBlank c = true)
      (hitem : Item text entry after) (hrest : Items after entries) :
      Items (blanks ++ text) (entry :: entries)

/-- An item takes at least one character, and does not begin with a blank. -/
theorem Item.eq_cons {text after : List Char} {entry : String × AttributeValue}
    (h : Item text entry after) :
    ∃ c rest, text = c :: rest ∧ isBlank c = false ∧ after.length < text.length := by
  cases h with
  | spread hsource =>
      obtain ⟨inside, rfl⟩ := hsource.eq_cons
      exact ⟨'\x7b', inside ++ after, rfl, by decide, by simp⟩
  | @token c token _ hblank =>
      exact ⟨c, token ++ after, rfl, hblank, by simp⟩
  | @name name _ hname =>
      cases name with
      | nil => exact absurd rfl hname.1
      | cons c name =>
          exact ⟨c, name ++ after, rfl, isBlank_eq_false_of_isNameChar (hname.2 c (by simp)), by simp⟩
  | @valued name gap value _ _ hname _ hvalue =>
      have hlength : after.length ≤ value.length := by
        cases hvalue <;> (simp only [List.length_append, List.length_cons]; omega)
      cases name with
      | nil => exact absurd rfl hname.1
      | cons c name =>
          exact ⟨c, _, rfl, isBlank_eq_false_of_isNameChar (hname.2 c (by simp)),
            by simp; omega⟩

/-! ## Reading items -/

theorem Rest.trim_text (rest : Rest) : rest.trim.text = trimStart rest.text := by
  simp [Rest.trim, spanWhile_eq, trimStart]

theorem Rest.expression_eq_ok_iff {rest after : Rest} {source : List Char} :
    rest.expression = .ok (source, after) ↔
      IsExpression source ∧ rest.text = source ++ after.text ∧
        after.offset = rest.offset + source.length := by
  unfold Rest.expression
  cases hscan : Scan.expression rest.offset rest.text with
  | error e =>
      constructor
      · intro h
        simp at h
      · rintro ⟨hsource, htext, -⟩
        rw [Scan.expression_eq_ok_iff.2 ⟨hsource, htext⟩] at hscan
        simp at hscan
  | ok found =>
      obtain ⟨source', text⟩ := found
      obtain ⟨hsource', htext⟩ := Scan.expression_eq_ok_iff.1 hscan
      simp only [Except.ok.injEq, Prod.mk.injEq]
      constructor
      · rintro ⟨rfl, rfl⟩
        exact ⟨hsource', htext, rfl⟩
      · rintro ⟨hsource, htext', hoffset⟩
        rw [Scan.expression_eq_ok_iff.2 ⟨hsource, htext'⟩, Except.ok.injEq, Prod.mk.injEq] at hscan
        obtain ⟨rfl, rfl⟩ := hscan
        exact ⟨rfl, by rw [← hoffset]⟩

/-- Reading a value follows the grammar of values. -/
theorem valueItem_of_readValue {name : String} {rest after : Rest} {entry : String × AttributeValue}
    (h : readValue name rest = .ok (entry, after)) : ValueItem name rest.text entry after.text := by
  obtain ⟨gap, hgap, htext, hstops⟩ := exists_blanks_append_trimStart rest.text
  unfold readValue at h
  simp only [Rest.trim_text] at h
  rw [htext]
  cases htrim : trimStart rest.text with
  | nil => simp [htrim] at h
  | cons c text =>
      rw [htrim, stops_cons] at hstops
      simp only [htrim] at h
      split_ifs at h with hquote hnone hbrace
      · simp only [Except.ok.injEq, Prod.mk.injEq] at h
        obtain ⟨rfl, rfl⟩ := h
        simp only [Rest.span, List.tail_cons, spanWhile_eq] at hnone ⊢
        have hafter := stops_dropWhile (· != c) text
        cases hdrop : text.dropWhile (· != c) with
        | nil => simp [hdrop] at hnone
        | cons d after =>
            rw [hdrop, stops_cons] at hafter
            have hd : d = c := by simpa using hafter
            subst hd
            have hsplit : text = text.takeWhile (· != d) ++ d :: after := by
              rw [← hdrop, List.takeWhile_append_dropWhile]
            have hvalue : d ∉ text.takeWhile (· != d) := by
              intro hmem
              simpa using List.mem_takeWhile_imp hmem
            have hitem := @ValueItem.quoted name _ _ after _ hgap hquote hvalue
            rwa [← hsplit] at hitem
      · cases hexpr : rest.trim.expression with
        | error e => simp [hexpr] at h
        | ok found =>
            obtain ⟨source, after'⟩ := found
            simp only [hexpr, Except.ok.injEq, Prod.mk.injEq] at h
            obtain ⟨rfl, rfl⟩ := h
            obtain ⟨hsource, hrest, -⟩ := Rest.expression_eq_ok_iff.1 hexpr
            rw [Rest.trim_text, htrim] at hrest
            rw [hrest]
            exact .braced hgap hsource
      · simp only [Rest.span, Rest.trim_text, htrim, spanWhile_eq, Except.ok.injEq, Prod.mk.injEq] at h
        obtain ⟨rfl, rfl⟩ := h
        have hsplit : c :: text = c :: text.takeWhile (!isBlank ·) ++ text.dropWhile (!isBlank ·) := by
          rw [List.cons_append, List.takeWhile_append_dropWhile]
        rw [List.takeWhile_cons_of_pos (by simp [hstops]), List.dropWhile_cons_of_pos (by simp [hstops])]
        rw [hsplit]
        refine .unquoted hgap hstops (by simpa using hquote) (by simpa using hbrace) ?_
          (stops_dropWhile _ _)
        intro d hd
        simpa using List.mem_takeWhile_imp hd

/-- Reading an item follows the grammar of items. -/
theorem item_of_readItem {rest after : Rest} {entry : String × AttributeValue} {c : Char}
    {text : List Char} (htext : rest.text = c :: text) (hblank : isBlank c = false)
    (h : readItem rest = .ok (entry, after)) : Item rest.text entry after.text := by
  unfold readItem at h
  simp only [htext, List.head?_cons, Rest.trim_text] at h
  split_ifs at h with hbrace hname hequals
  · cases hexpr : rest.expression with
    | error e => simp [hexpr] at h
    | ok found =>
        obtain ⟨source, after'⟩ := found
        simp only [hexpr, Except.ok.injEq, Prod.mk.injEq] at h
        obtain ⟨rfl, rfl⟩ := h
        obtain ⟨hsource, hrest, -⟩ := Rest.expression_eq_ok_iff.1 hexpr
        rw [hrest]
        exact .spread hsource
  · simp only [Rest.span, htext, spanWhile_eq, List.isEmpty_iff] at h hname
    simp only [Except.ok.injEq, Prod.mk.injEq] at h
    obtain ⟨rfl, rfl⟩ := h
    have hc : isNameChar c = false := by
      by_contra hc
      rw [Bool.not_eq_false] at hc
      rw [List.takeWhile_cons_of_pos hc] at hname
      simp at hname
    have htake : (c :: text).takeWhile (!isBlank ·) = c :: text.takeWhile (!isBlank ·) :=
      List.takeWhile_cons_of_pos (by simp [hblank])
    have hdrop : (c :: text).dropWhile (!isBlank ·) = text.dropWhile (!isBlank ·) :=
      List.dropWhile_cons_of_pos (by simp [hblank])
    have hsplit : c :: text = c :: text.takeWhile (!isBlank ·) ++ text.dropWhile (!isBlank ·) := by
      rw [List.cons_append, List.takeWhile_append_dropWhile]
    rw [htext, htake, hdrop]
    nth_rewrite 1 [hsplit]
    refine .token hblank (by simpa using hbrace) hc ?_ (stops_dropWhile _ _)
    intro d hd
    simpa using List.mem_takeWhile_imp hd
  all_goals
    simp only [Rest.span, htext, spanWhile_eq, List.isEmpty_iff] at h hname hequals
    have hisName : IsName ((c :: text).takeWhile isNameChar) :=
      ⟨hname, fun _ hd => List.mem_takeWhile_imp hd⟩
    have hsplit : c :: text =
        (c :: text).takeWhile isNameChar ++ (c :: text).dropWhile isNameChar :=
      List.takeWhile_append_dropWhile.symm
  · obtain ⟨gap, hgap, hafter, -⟩ := exists_blanks_append_trimStart ((c :: text).dropWhile isNameChar)
    cases htrim : trimStart ((c :: text).dropWhile isNameChar) with
    | nil => simp [htrim] at hequals
    | cons d value =>
        have hd : d = '=' := by simpa [htrim] using hequals
        subst hd
        have hvalue := valueItem_of_readValue h
        simp only [htrim, List.tail_cons] at hvalue
        rw [htrim] at hafter
        rw [htext, hsplit, hafter]
        exact .valued hisName hgap hvalue
  · simp only [Except.ok.injEq, Prod.mk.injEq] at h
    obtain ⟨rfl, rfl⟩ := h
    rw [htext]
    nth_rewrite 1 [hsplit]
    exact .name hisName (stops_dropWhile _ _) (by simpa using hequals)

theorem span_eq {offset : Nat} {front rest : List Char} {keep : Char → Bool}
    (hfront : ∀ c ∈ front, keep c = true) (hrest : Stops keep rest) :
    (⟨offset, front ++ rest⟩ : Rest).span keep = (front, ⟨offset + front.length, rest⟩) := by
  simp only [Rest.span, spanWhile_eq_iff.2 ⟨rfl, hfront, hrest⟩]

theorem trim_eq {offset : Nat} {blanks text : List Char} (hblanks : ∀ c ∈ blanks, isBlank c = true)
    (htext : Stops isBlank text) :
    (⟨offset, blanks ++ text⟩ : Rest).trim = ⟨offset + blanks.length, text⟩ := by
  simp only [Rest.trim, spanWhile_eq_iff.2 ⟨rfl, hblanks, htext⟩]

theorem expression_eq {offset : Nat} {source after : List Char} (h : IsExpression source) :
    (⟨offset, source ++ after⟩ : Rest).expression = .ok (source, ⟨offset + source.length, after⟩) :=
  Rest.expression_eq_ok_iff.2 ⟨h, rfl, rfl⟩

/-- Every value of the grammar is read. -/
theorem readValue_of_valueItem {name : String} {text after : List Char}
    {entry : String × AttributeValue} (h : ValueItem name text entry after) (offset : Nat) :
    ∃ offset', readValue name ⟨offset, text⟩ = .ok (entry, ⟨offset', after⟩) := by
  unfold readValue
  cases h with
  | @quoted gap value _ quote hgap hquote hvalue =>
      have hstops : Stops isBlank (quote :: (value ++ quote :: after)) :=
        stops_cons.2 (eq_false_of_isTagQuote (by decide) (by decide) hquote)
      have hkeep : ∀ c ∈ value, (c != quote) = true := bne_of_not_mem hvalue
      have hend : Stops (· != quote) (quote :: after) := stops_cons.2 (by simp)
      rw [trim_eq hgap hstops]
      simp only [hquote, if_true, List.tail_cons, span_eq hkeep hend, List.isEmpty_cons]
      exact ⟨_, rfl⟩
  | @braced gap source _ hgap hsource =>
      obtain ⟨inside, rfl⟩ := hsource.eq_cons
      have hstops : Stops isBlank ('\x7b' :: inside ++ after) := stops_cons.2 (by decide)
      rw [trim_eq hgap hstops]
      dsimp only
      rw [expression_eq hsource]
      exact ⟨_, rfl⟩
  | @unquoted gap value _ c hgap hblank hquote hbrace hvalue hafter =>
      have hstops : Stops isBlank (c :: value ++ after) := stops_cons.2 hblank
      have hkeep : ∀ d ∈ c :: value, (!isBlank d) = true := by
        intro d hd
        rcases List.mem_cons.1 hd with rfl | hd
        · simp [hblank]
        · simp [hvalue d hd]
      have hc : (c == '\x7b') = false := by simpa using hbrace
      rw [trim_eq hgap hstops]
      dsimp only
      rw [span_eq hkeep hafter]
      simp only [List.cons_append, hquote, hc, Bool.false_eq_true, if_false]
      exact ⟨_, rfl⟩

/-- Every item of the grammar is read. -/
theorem readItem_of_item {text after : List Char} {entry : String × AttributeValue}
    (h : Item text entry after) (offset : Nat) :
    ∃ offset', readItem ⟨offset, text⟩ = .ok (entry, ⟨offset', after⟩) := by
  unfold readItem
  cases h with
  | spread hsource =>
      obtain ⟨inside, rfl⟩ := hsource.eq_cons
      rw [expression_eq hsource]
      exact ⟨_, rfl⟩
  | @token c token _ hblank hbrace hname htoken hafter =>
      have hkeep : ∀ d ∈ c :: token, (!isBlank d) = true := by
        intro d hd
        rcases List.mem_cons.1 hd with rfl | hd
        · simp [hblank]
        · simp [htoken d hd]
      have hnoName := @span_eq offset [] (c :: token ++ after) isNameChar (by simp)
        (stops_cons.2 hname)
      rw [List.nil_append] at hnoName
      rw [hnoName, span_eq hkeep hafter]
      simp only [List.cons_append, List.head?_cons, beq_iff_eq, Option.some.injEq, hbrace, if_false,
        List.isEmpty_nil, if_true]
      exact ⟨_, rfl⟩
  | @name name _ hname hafter hequals =>
      cases name with
      | nil => exact absurd rfl hname.1
      | cons c name =>
          have hbrace : c ≠ '\x7b' := ne_of_passes (hname.2 c (by simp)) (by decide)
          rw [span_eq hname.2 hafter]
          simp only [List.cons_append, List.head?_cons, beq_iff_eq, Option.some.injEq, hbrace, if_false,
            List.isEmpty_cons, Bool.false_eq_true, Rest.trim_text, hequals]
          exact ⟨_, rfl⟩
  | @valued name gap value _ _ hname hgap hvalue =>
      cases name with
      | nil => exact absurd rfl hname.1
      | cons c name =>
          have hbrace : c ≠ '\x7b' := ne_of_passes (hname.2 c (by simp)) (by decide)
          have hequals : Stops isBlank ('=' :: value) := stops_cons.2 (by decide)
          rw [span_eq hname.2 (stops_gap_equals hgap value)]
          simp only [List.cons_append, List.head?_cons, beq_iff_eq, Option.some.injEq, hbrace, if_false,
            List.isEmpty_cons, Bool.false_eq_true, trim_eq hgap hequals, if_true, List.tail_cons]
          exact readValue_of_valueItem hvalue _

/-! ## Reading lists -/

/-- A list of items is blank, or begins with an item after blanks. -/
theorem items_iff {text : List Char} {entries : List (String × AttributeValue)} :
    Items text entries ↔
      (trimStart text = [] ∧ entries = []) ∨
        ∃ entry rest after, Item (trimStart text) entry after ∧ Items after rest ∧
          entries = entry :: rest := by
  constructor
  · intro h
    cases h with
    | nil hblanks =>
        have htrim := trimStart_append_of_stops hblanks (stops_nil isBlank)
        rw [List.append_nil] at htrim
        exact .inl ⟨htrim, rfl⟩
    | @cons blanks text after entry rest hblanks hitem hrest =>
        obtain ⟨c, text, rfl, hc, -⟩ := hitem.eq_cons
        rw [trimStart_append_of_stops hblanks (stops_cons.2 hc)]
        exact .inr ⟨entry, rest, after, hitem, hrest, rfl⟩
  · obtain ⟨blanks, hblanks, htext, -⟩ := exists_blanks_append_trimStart text
    rintro (⟨htrim, rfl⟩ | ⟨entry, rest, after, hitem, hrest, rfl⟩)
    · rw [htrim, List.append_nil] at htext
      exact htext ▸ .nil hblanks
    · rw [htext]
      exact .cons hblanks hitem hrest

/-- Entries given one after the other, later ones replacing earlier ones of the same name. -/
def setAll (attributes : Attributes) (entries : List (String × AttributeValue)) : Attributes :=
  entries.foldl (fun found entry => found.set entry.1 entry.2) attributes

theorem setAll_cons (attributes : Attributes) (entry : String × AttributeValue)
    (entries : List (String × AttributeValue)) :
    setAll attributes (entry :: entries) = setAll (attributes.set entry.1 entry.2) entries := rfl

theorem readFuel_eq_ok_iff {fuel : Nat} {attributes result : Attributes} {rest : Rest}
    (hfuel : rest.text.length < fuel) :
    readFuel fuel attributes rest = .ok result ↔
      ∃ entries, Items rest.text entries ∧ result = setAll attributes entries := by
  induction fuel generalizing attributes rest with
  | zero => omega
  | succ fuel ih =>
      obtain ⟨blanks, -, htext, hstops⟩ := exists_blanks_append_trimStart rest.text
      simp only [readFuel, Rest.trim_text, List.isEmpty_iff, @items_iff rest.text]
      cases htrim : trimStart rest.text with
      | nil =>
          simp only [if_true, Except.ok.injEq]
          constructor
          · rintro rfl
            exact ⟨[], .inl ⟨trivial, rfl⟩, rfl⟩
          · rintro ⟨entries, ⟨-, rfl⟩ | ⟨entry, rest', after, hitem, -⟩, rfl⟩
            · rfl
            · obtain ⟨c, text, hnil, -⟩ := hitem.eq_cons
              simp at hnil
      | cons c text =>
          rw [htrim, stops_cons] at hstops
          have hrest : rest.trim.text = c :: text := by rw [Rest.trim_text, htrim]
          have hlength : (c :: text).length ≤ rest.text.length := by
            rw [htext, htrim, List.length_append]
            omega
          simp only [reduceCtorEq, if_false, false_and, false_or]
          constructor
          · intro h
            cases hitem : readItem rest.trim with
            | error e => simp [hitem] at h
            | ok found =>
                obtain ⟨entry, after⟩ := found
                simp only [hitem] at h
                have hform := item_of_readItem hrest hstops hitem
                rw [hrest] at hform
                obtain ⟨-, -, -, -, hshorter⟩ := hform.eq_cons
                obtain ⟨entries, hentries, rfl⟩ := (ih (by omega)).1 h
                exact ⟨entry :: entries, ⟨entry, entries, after.text, hform, hentries, rfl⟩, rfl⟩
          · rintro ⟨entries, ⟨entry, rest', after, hform, hentries, rfl⟩, rfl⟩
            obtain ⟨-, -, -, -, hshorter⟩ := hform.eq_cons
            obtain ⟨offset, hread⟩ := readItem_of_item hform rest.trim.offset
            have heq : rest.trim = ⟨rest.trim.offset, c :: text⟩ := by rw [← hrest]
            rw [heq, hread]
            exact (@ih _ ⟨offset, after⟩ (by simp only; omega)).2 ⟨rest', hentries, rfl⟩

/-- Reading an attribute list succeeds exactly on the lists of the grammar. -/
theorem read_eq_ok_iff {text : List Char} {result : Attributes} :
    read text = .ok result ↔ ∃ entries, Items text entries ∧ result = setAll .empty entries :=
  readFuel_eq_ok_iff (Nat.lt_succ_self _)

end ComponentBuilder.Markup.AttributeList
