import ComponentBuilder.Proofs.Markup.AttributeOrder
import ComponentBuilder.Proofs.Markup.FixedPoint
import ComponentBuilder.Proofs.Markup.Sources

/-!
# What opened the elements of a tree

Every element of a tree was opened by a tag that stands in the module the tree was read from, and every
attribute of it by an item of that tag.  Neither the name of the tag nor an item of it begins in the middle
of a word, so what names an element or an attribute is a whole word of the module.
-/

namespace ComponentBuilder.Markup

open Text Scan

/-! ## Opening tags in a module -/

mutual

theorem exists_opening_of_element {name : Nat → String} {n m : Nat} {tokens : List Token} {node : Node}
    (h : Element name n tokens node m) :
    ∀ other ∈ node.descendants, ∃ selfClosing,
      Token.opening other.tag other.attributes selfClosing ∈ tokens := by
  match h with
  | .selfClosing =>
      intro other hother
      simp only [Node.descendants, descendantsOf, List.mem_singleton] at hother
      subst hother
      exact ⟨true, List.mem_cons_self⟩
  | @Element.pair _ _ _ _ _ _ inner pieces hinner =>
      intro other hother
      have hchildren : descendantsOf (joinTexts pieces) = descendantsOf pieces := descendantsOf_joinFrom [] pieces
      rw [Node.descendants, List.mem_cons, hchildren] at hother
      rcases hother with rfl | hother
      · exact ⟨false, List.mem_cons_self⟩
      · obtain ⟨selfClosing, hmem⟩ := exists_opening_of_content hinner other hother
        exact ⟨selfClosing, List.mem_cons_of_mem _ (List.mem_append_left _ hmem)⟩

theorem exists_opening_of_content {name : Nat → String} {n m : Nat} {tokens : List Token}
    {pieces : List Child} (h : Content name n tokens pieces m) :
    ∀ other ∈ descendantsOf pieces, ∃ selfClosing,
      Token.opening other.tag other.attributes selfClosing ∈ tokens := by
  match h with
  | .nil => simp [descendantsOf]
  | .text hrest =>
      intro other hother
      obtain ⟨selfClosing, hmem⟩ := exists_opening_of_content hrest other hother
      exact ⟨selfClosing, List.mem_cons_of_mem _ hmem⟩
  | .element hfirst hrest =>
      intro other hother
      rw [descendantsOf, List.mem_append] at hother
      rcases hother with hother | hother
      · obtain ⟨selfClosing, hmem⟩ := exists_opening_of_element hfirst other hother
        exact ⟨selfClosing, List.mem_append_left _ hmem⟩
      · obtain ⟨selfClosing, hmem⟩ := exists_opening_of_content hrest other hother
        exact ⟨selfClosing, List.mem_append_right _ hmem⟩

end

theorem exists_part_of_mem {parts : List (List Char)} {tokens : List Token}
    (h : List.Forall₂ Token.Spells parts tokens) {token : Token} (htoken : token ∈ tokens) :
    ∃ front part back, parts.flatten = front ++ (part ++ back) ∧ Token.Spells part token := by
  obtain ⟨before, after, rfl⟩ := List.append_of_mem htoken
  have hrest := List.forall₂_drop_append parts before (token :: after) h
  have hsplit := List.take_append_drop before.length parts
  generalize parts.drop before.length = others at hrest hsplit
  cases hrest with
  | @cons part _ others _ hpart =>
      refine ⟨(parts.take before.length).flatten, part, others.flatten, ?_, hpart⟩
      rw [← List.flatten_cons, ← List.flatten_append, hsplit]

/-- Every element of a module's tree was opened by a tag that stands in the module. -/
theorem exists_opening_of_transform {name : Nat → String} {component source : String} {canonical : Canonical}
    (h : transform name component source = .ok canonical) :
    ∀ node ∈ canonical.tree.descendants, ∃ front content back selfClosing,
      source.toList = front ++ '<' :: (content ++ '>' :: back) ∧
        Token.Opens content node.tag node.attributes selfClosing := by
  obtain ⟨body, hbody, hread, -⟩ := transform_eq_ok_iff.1 h
  obtain ⟨outer, inner, -, m, parts, after, -, -, helement, hparts, htext⟩ := Fragment.exists_parts_of_read hread
  obtain ⟨before, behind, hsource⟩ := exists_append_of_returnBody_eq hbody
  intro node hnode
  obtain ⟨selfClosing, hmem⟩ := exists_opening_of_element helement node hnode
  obtain ⟨front, part, back, hflatten, hspells⟩ := exists_part_of_mem hparts hmem
  cases hspells with
  | @opening content _ _ _ hopens =>
      refine ⟨before ++ (leadingText outer ++ front), content, back ++ (after ++ behind), selfClosing, ?_, hopens⟩
      rw [hsource, htext, hflatten]
      simp

/-! ## The parts of an opening tag -/

/-- An opening tag is the name of the element, the list of its attributes, and the slash if it has one. -/
theorem Token.OpeningTag.exists_parts {content : List Char} {tag : String} {attributes : Attributes}
    {selfClosing : Bool} (h : OpeningTag content tag attributes selfClosing) :
    ∃ rest back, content = tag.toList ++ (rest ++ back) ∧ LeadingName (tag.toList ++ rest) tag.toList rest ∧
      AttributeList.read rest = .ok attributes ∧ back.head?.all (· == '/') = true := by
  have hsplit {text name rest : List Char} (hname : LeadingName text name rest) : text = name ++ rest := by
    cases hname with
    | none => rfl
    | some => simp
  cases h with
  | @selfClosing body name rest _ hslash hname hattributes =>
      obtain ⟨blanks, -, hcontent⟩ := exists_trimEnd_append_blanks content
      refine ⟨rest, '/' :: blanks, ?_, ?_, hattributes, rfl⟩
      · rw [hcontent, hslash, hsplit hname]
        simp
      · rw [String.toList_ofList, ← hsplit hname]
        exact hname
  | @pair name rest _ hslash hname hattributes =>
      refine ⟨rest, [], ?_, ?_, hattributes, rfl⟩
      · rw [hsplit hname]
        simp
      · rw [String.toList_ofList, ← hsplit hname]
        exact hname

/-! ## Items -/

namespace AttributeList

/-- A place in a text that is not in the middle of a word. -/
def Apart (behind text : List Char) : Prop :=
  behind.head?.any isWord = false ∨ text.head?.any isWord = false

theorem any_isWord_of_stops {text : List Char} (h : Stops isNameChar text) : text.head?.any isWord = false := by
  cases text with
  | nil => rfl
  | cons c text =>
      rw [stops_cons] at h
      by_contra hword
      rw [Bool.not_eq_false] at hword
      rw [isNameChar_of_isWord hword] at h
      cases h

theorem any_isWord_of_blank {text : List Char} (h : Stops (!isBlank ·) text) :
    text.head?.any isWord = false := by
  cases text with
  | nil => rfl
  | cons c text =>
      rw [stops_cons] at h
      exact isWord_eq_false_of_isBlank (by simpa using h)

theorem isWord_of_isTagQuote {c : Char} (h : isTagQuote c = true) : isWord c = false :=
  eq_false_of_isTagQuote (by decide) (by decide) h

theorem apart_of_isExpression {source : List Char} (h : IsExpression source) (front behind after : List Char) :
    Apart ((front ++ source).reverse ++ behind) after := by
  left
  have hlast : (front ++ source).getLast? = some '\x7d' := by
    rw [List.getLast?_append, h.getLast?_eq]
    rfl
  rw [List.head?_append, List.head?_reverse, hlast]
  rfl

theorem ValueItem.exists_part {name : String} {text after : List Char} {entry : String × AttributeValue}
    (h : ValueItem name text entry after) :
    ∃ part, text = part ++ after ∧ ∀ front behind, Apart ((front ++ part).reverse ++ behind) after := by
  cases h with
  | @quoted gap value _ quote hgap hquote hvalue =>
      refine ⟨gap ++ quote :: (value ++ [quote]), by simp, fun front behind => .inl ?_⟩
      simp [isWord_of_isTagQuote hquote]
  | @braced gap source _ hgap hsource =>
      refine ⟨gap ++ source, by simp, fun front behind => ?_⟩
      rw [← List.append_assoc front]
      exact apart_of_isExpression hsource _ _ _
  | @unquoted gap value _ c hgap hblank hquote hbrace hvalue hafter =>
      exact ⟨gap ++ (c :: value), by simp, fun _ _ => .inr (any_isWord_of_blank hafter)⟩

theorem Item.exists_part {text after : List Char} {entry : String × AttributeValue} (h : Item text entry after) :
    ∃ part, text = part ++ after ∧ ∀ front behind, Apart ((front ++ part).reverse ++ behind) after := by
  cases h with
  | @spread source _ hsource => exact ⟨source, rfl, fun _ _ => apart_of_isExpression hsource _ _ _⟩
  | @token c token _ hblank hbrace hname htoken hafter =>
      exact ⟨c :: token, rfl, fun _ _ => .inr (any_isWord_of_blank hafter)⟩
  | @name name _ hname hafter => exact ⟨name, rfl, fun _ _ => .inr (any_isWord_of_stops hafter)⟩
  | @valued name gap value _ _ hname hgap hvalue =>
      obtain ⟨part, rfl, hpart⟩ := hvalue.exists_part
      refine ⟨name ++ (gap ++ '=' :: part), by simp, fun front behind => ?_⟩
      have hapart := hpart (front ++ (name ++ (gap ++ ['=']))) behind
      simpa using hapart

/-- Every entry of a list stands for an item of it, which does not begin in the middle of a word. -/
theorem Items.exists_item {text : List Char} {entries : List (String × AttributeValue)} (h : Items text entries)
    {behind : List Char} (hbehind : Apart behind text) : ∀ entry ∈ entries, ∃ before item after,
      text = before ++ item ∧ Item item entry after ∧ Apart (before.reverse ++ behind) item := by
  induction h generalizing behind with
  | nil => simp
  | @cons blanks text after entry entries hblanks hitem _ ih =>
      obtain ⟨part, hpart, hnext⟩ := hitem.exists_part
      intro other hother
      rcases List.mem_cons.1 hother with rfl | hother
      · refine ⟨blanks, text, after, rfl, hitem, ?_⟩
        rcases List.eq_nil_or_concat blanks with rfl | ⟨front, c, rfl⟩
        · exact hbehind
        · left
          have hc := isWord_eq_false_of_isBlank (hblanks c (by simp))
          simp [hc]
      · obtain ⟨before, item, rest, rfl, hother, hapart⟩ := ih (hnext blanks behind) other hother
        exact ⟨blanks ++ (part ++ before), item, rest, by rw [hpart]; simp, hother, by simpa using hapart⟩

theorem exists_item_of_read {text : List Char} {attributes : Attributes} (h : read text = .ok attributes)
    {behind : List Char} (hbehind : Apart behind text) : ∀ entry ∈ attributes.entries, ∃ before item after,
      text = before ++ item ∧ Item item entry after ∧ Apart (before.reverse ++ behind) item := by
  obtain ⟨entries, hitems, rfl⟩ := read_eq_ok_iff.1 h
  intro entry hentry
  rcases mem_setAll hentry with hentry | hentry
  · cases hentry
  · exact hitems.exists_item hbehind entry hentry

/-- An item whose key begins with a word character is that name, and its value what follows it. -/
theorem Item.exists_named {text after : List Char} {key : String} {value : AttributeValue}
    (h : Item text (key, value) after) (hkey : key.toList.head?.any isWord = true) :
    ∃ more, text = key.toList ++ more ∧ Stops isNameChar more ∧ ∀ source, value = .expression source →
      ∃ gap gap' rest, more = gap ++ '=' :: (gap' ++ '\x7b' :: rest) ∧ (∀ c ∈ gap, isBlank c = true) ∧
        ∀ c ∈ gap', isBlank c = true := by
  generalize hentry : (key, value) = entry at h
  cases h with
  | spread hsource =>
      obtain ⟨rfl, -⟩ := Prod.mk.inj hentry
      obtain ⟨inside, rfl⟩ := hsource.eq_cons
      rw [String.toList_ofList] at hkey
      cases hkey
  | token hblank hbrace hname =>
      obtain ⟨rfl, -⟩ := Prod.mk.inj hentry
      rw [String.toList_ofList, List.head?_cons, Option.any_some] at hkey
      rw [isNameChar_of_isWord hkey] at hname
      cases hname
  | name hname hafter =>
      obtain ⟨rfl, rfl⟩ := Prod.mk.inj hentry
      exact ⟨after, by rw [String.toList_ofList], hafter, by rintro source ⟨⟩⟩
  | valued hname hgap hvalue =>
      cases hvalue with
      | quoted | unquoted =>
          obtain ⟨rfl, rfl⟩ := Prod.mk.inj hentry
          exact ⟨_, by rw [String.toList_ofList], stops_gap_equals hgap _, by rintro source ⟨⟩⟩
      | braced hgap' hsource =>
          obtain ⟨rfl, rfl⟩ := Prod.mk.inj hentry
          obtain ⟨inside, rfl⟩ := hsource.eq_cons
          exact ⟨_, by rw [String.toList_ofList], stops_gap_equals hgap _,
            fun _ _ => ⟨_, _, inside ++ after, by rw [List.cons_append], hgap, hgap'⟩⟩

end AttributeList

/-! ## Names in a module -/

open AttributeList

/-- What opened an element: its name, and after it the list of its attributes. -/
theorem exists_parts_of_transform {name : Nat → String} {component source : String} {canonical : Canonical}
    (h : transform name component source = .ok canonical) :
    ∀ node ∈ canonical.tree.descendants, ∃ front rest back,
      source.toList = front ++ '<' :: (node.tag.toList ++ (rest ++ back)) ∧
        Token.LeadingName (node.tag.toList ++ rest) node.tag.toList rest ∧
        AttributeList.read rest = .ok node.attributes ∧ Stops isNameChar back := by
  intro node hnode
  obtain ⟨front, content, back, selfClosing, hsource, hopens⟩ := exists_opening_of_transform h node hnode
  obtain ⟨rest, slash, rfl, hname, hread, hslash⟩ := hopens.reads.exists_parts
  refine ⟨front, rest, slash ++ '>' :: back, by rw [hsource]; simp, hname, hread, ?_⟩
  cases slash with
  | nil => exact stops_cons.2 (by decide)
  | cons c slash =>
      obtain rfl : c = '/' := by simpa using hslash
      exact stops_cons.2 (by decide)

/-- The names of tags and those of attributes go on with the same characters. -/
theorem isTagChar_eq_isNameChar : Token.isTagChar = isNameChar := by
  funext c
  simp only [Token.isTagChar, isNameChar]
  ac_rfl

theorem stops_of_leadingName {tag rest back : List Char} (h : Token.LeadingName (tag ++ rest) tag rest)
    (htag : tag ≠ []) (hback : Stops isNameChar back) : Stops isNameChar (rest ++ back) := by
  generalize htext : tag ++ rest = text at h
  cases h with
  | none => exact absurd rfl htag
  | some hstart hname hrest =>
      rw [isTagChar_eq_isNameChar] at hrest
      cases rest with
      | nil => exact hback
      | cons c rest => exact stops_cons.2 (stops_cons.1 hrest)

theorem apart_of_leadingName {tag rest : List Char} (h : Token.LeadingName (tag ++ rest) tag rest)
    (front : List Char) : Apart (tag.reverse ++ '<' :: front) rest := by
  cases tag with
  | nil => exact .inl rfl
  | cons c tag =>
      have hstops := stops_of_leadingName h (by simp) (stops_nil isNameChar)
      rw [List.append_nil] at hstops
      exact .inr (any_isWord_of_stops hstops)

/-- An attribute's name that begins with a word character is a word of the module. -/
theorem exists_word_of_transform {name : Nat → String} {component source : String} {canonical : Canonical}
    (h : transform name component source = .ok canonical) {node : Node}
    (hnode : node ∈ canonical.tree.descendants) {key : String} {value : AttributeValue}
    (hentry : (key, value) ∈ node.attributes.entries) (hkey : key.toList.head?.any isWord = true) :
    ∃ before more, source.toList = before ++ (key.toList ++ more) ∧
      before.reverse.head?.any isWord = false ∧ more.head?.any isWord = false ∧
      ∀ text, value = .expression text → ∃ gap gap' rest, more = gap ++ '=' :: (gap' ++ '\x7b' :: rest) ∧
        (∀ c ∈ gap, isBlank c = true) ∧ ∀ c ∈ gap', isBlank c = true := by
  obtain ⟨front, rest, back, hsource, hname, hread, hback⟩ := exists_parts_of_transform h node hnode
  obtain ⟨before, item, after, rfl, hitem, hapart⟩ :=
    exists_item_of_read hread (apart_of_leadingName hname front.reverse) _ hentry
  obtain ⟨more, rfl, hmore, hvalue⟩ := hitem.exists_named hkey
  refine ⟨front ++ '<' :: (node.tag.toList ++ before), more ++ back, by rw [hsource]; simp, ?_, ?_, ?_⟩
  · have hhead : (key.toList ++ more).head?.any isWord = true := by
      cases hcons : key.toList with
      | nil => simp [hcons] at hkey
      | cons c text => simpa [hcons] using hkey
    rcases hapart with hapart | hapart
    · simpa using hapart
    · rw [hhead] at hapart
      cases hapart
  · apply any_isWord_of_stops
    cases more with
    | nil => exact hback
    | cons c more => exact stops_cons.2 (stops_cons.1 hmore)
  · intro text htext
    obtain ⟨gap, gap', inside, rfl, hgap, hgap'⟩ := hvalue text htext
    exact ⟨gap, gap', inside ++ back, by simp, hgap, hgap'⟩

end ComponentBuilder.Markup
