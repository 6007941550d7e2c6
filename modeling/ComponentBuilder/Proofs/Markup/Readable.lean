import ComponentBuilder.Markup.Printer
import ComponentBuilder.Proofs.Markup.Acceptance

/-!
# Trees that can be read back

The canonical text of a tree is cut at its own tags when every opening tag in it reads back by itself
and its texts hold nothing that begins a tag.  Such a text is then read as the same tree, up to the
identifiers of its elements.
-/

namespace ComponentBuilder.Markup

open Text Scan

/-! ## Trees up to identifiers -/

mutual

/-- A tree with its identifiers forgotten. -/
def Node.unnamed : Node → Node
  | .mk _ tag attributes children => .mk "" tag attributes (unnamedChildren children)
termination_by structural node => node

/-- Children with their identifiers forgotten. -/
def unnamedChildren : List Child → List Child
  | [] => []
  | .text value :: rest => .text value :: unnamedChildren rest
  | .element node :: rest => .element node.unnamed :: unnamedChildren rest
termination_by structural children => children

end

theorem unnamedChildren_append (first second : List Child) :
    unnamedChildren (first ++ second) = unnamedChildren first ++ unnamedChildren second := by
  induction first with
  | nil => rfl
  | cons child first ih => cases child <;> simp [unnamedChildren, ih]

theorem isEmpty_unnamedChildren (children : List Child) :
    (unnamedChildren children).isEmpty = children.isEmpty := by
  cases children with
  | nil => rfl
  | cons child rest => cases child <;> rfl

mutual

/-- Identifiers are not written. -/
theorem Node.render_unnamed (node : Node) : node.unnamed.render = node.render := by
  match node with
  | .mk id tag attributes children =>
      simp only [Node.unnamed, Node.render, isEmpty_unnamedChildren, renderChildren_unnamed children]

theorem renderChildren_unnamed (children : List Child) :
    renderChildren (unnamedChildren children) = renderChildren children := by
  match children with
  | [] => rfl
  | .text value :: rest => simp only [unnamedChildren, renderChildren, renderChildren_unnamed rest]
  | .element node :: rest =>
      simp only [unnamedChildren, renderChildren, node.render_unnamed, renderChildren_unnamed rest]

end

mutual

/-- Identifiers are no part of the structure. -/
theorem Node.sameStructure_of_unnamed_eq (a b : Node) (h : a.unnamed = b.unnamed) :
    a.sameStructure b = true := by
  match a, b with
  | .mk _ tag attributes children, .mk _ tag' attributes' children' =>
      simp only [Node.unnamed, Node.mk.injEq, true_and] at h
      obtain ⟨rfl, rfl, hchildren⟩ := h
      simp [Node.sameStructure, sameChildren_of_unnamed_eq children children' hchildren]

theorem sameChildren_of_unnamed_eq (as bs : List Child) (h : unnamedChildren as = unnamedChildren bs) :
    sameChildren as bs = true := by
  match as, bs with
  | [], [] => rfl
  | .text a :: as, .text b :: bs =>
      simp only [unnamedChildren, List.cons.injEq, Child.text.injEq] at h
      simp [sameChildren, h.1, sameChildren_of_unnamed_eq as bs h.2]
  | .element a :: as, .element b :: bs =>
      simp only [unnamedChildren, List.cons.injEq, Child.element.injEq] at h
      simp [sameChildren, a.sameStructure_of_unnamed_eq b h.1, sameChildren_of_unnamed_eq as bs h.2]
  | [], .text _ :: _ | [], .element _ :: _ | .text _ :: _, [] | .element _ :: _, []
  | .text _ :: _, .element _ :: _ | .element _ :: _, .text _ :: _ => simp [unnamedChildren] at h

end

/-! ## Opening tags -/

/-- Whether an element is written as one tag that closes itself. -/
def Node.closesItself (node : Node) : Bool :=
  node.children.isEmpty && !node.tag.isEmpty

/-- What stands between the angle brackets of an element's opening tag. -/
def Node.tagContent (node : Node) : List Char :=
  node.tag.toList ++ renderAttributes node.attributes ++ if node.closesItself then " /".toList else []

/-- The text of an element that closes itself. -/
theorem Node.render_of_closesItself {node : Node} (h : node.closesItself = true) :
    node.render = '<' :: (node.tagContent ++ ['>']) := by
  obtain ⟨id, tag, attributes, children⟩ := node
  have hcond : (children.isEmpty && !tag.isEmpty) = true := h
  simp [Node.render, Node.tagContent, Node.attributes, Node.tag, h, hcond]

/-- The text of an element with a pair of tags. -/
theorem Node.render_of_pair {node : Node} (h : node.closesItself = false) :
    node.render = '<' :: (node.tagContent ++ '>' ::
      (renderChildren node.children ++ '<' :: '/' :: (node.tag.toList ++ ['>']))) := by
  obtain ⟨id, tag, attributes, children⟩ := node
  have hcond : (children.isEmpty && !tag.isEmpty) = false := h
  simp [Node.render, Node.tagContent, Node.attributes, Node.tag, Node.children, h, hcond]

/-- The opening tag of an element, cut by itself, is one token that says what the element is. -/
def Node.ReadsBack (node : Node) : Prop :=
  Token.cut ('<' :: (node.tagContent ++ ['>'])) =
    ⟨[.opening node.tag node.attributes node.closesItself], none⟩

instance (node : Node) : Decidable node.ReadsBack :=
  inferInstanceAs (Decidable (_ = _))

/-- A content that opens a tag, and what the tag says. -/
structure Token.Opens (content : List Char) (tag : String) (attributes : Attributes)
    (selfClosing : Bool) : Prop where
  opens : opensTag (content ++ ['>']) = true
  slash : content.head? ≠ some '/'
  inside : TagInside content
  reads : OpeningTag content tag attributes selfClosing

theorem Token.Opens.cuts {content : List Char} {tag : String} {attributes : Attributes}
    {selfClosing : Bool} (h : Token.Opens content tag attributes selfClosing) {offset : Nat}
    {after : List Char} {tokens : List Token}
    (hafter : Cuts (offset + content.length + 2) after tokens) :
    Cuts offset ('<' :: (content ++ '>' :: after)) (.opening tag attributes selfClosing :: tokens) := by
  refine .opening ?_ ?_ (tag_eq_ok_iff.2 ⟨h.inside, rfl⟩) h.reads hafter
  · rw [opensTag_congr (show _ = (content ++ ['>']).head? by cases content <;> rfl), h.opens]
  · have hslash := h.slash
    cases content with
    | nil => simp
    | cons c content => exact hslash

theorem Token.opens_of_tag {offset : Nat} {rest content after : List Char} {tag : String}
    {attributes : Attributes} {selfClosing : Bool} (hopens : opensTag rest = true)
    (hslash : rest.head? ≠ some '/') (hend : Scan.tag (offset + 1) rest = .ok (content, after))
    (htag : OpeningTag content tag attributes selfClosing) :
    rest = content ++ '>' :: after ∧ Opens content tag attributes selfClosing := by
  obtain ⟨hinside, rfl⟩ := tag_eq_ok_iff.1 hend
  have hhead : (content ++ '>' :: after).head? = (content ++ ['>']).head? := by
    cases content <;> rfl
  have hnoSlash : content.head? ≠ some '/' := by
    cases content with
    | nil => simp
    | cons c content => exact hslash
  rw [opensTag_congr hhead] at hopens
  exact ⟨rfl, hopens, hnoSlash, hinside, htag⟩

/-- A text whose first token is an opening tag begins with what opens that tag. -/
theorem Token.exists_opens_of_cuts {offset : Nat} {text : List Char} {tag : String}
    {attributes : Attributes} {selfClosing : Bool} {tokens : List Token}
    (h : Cuts offset text (.opening tag attributes selfClosing :: tokens)) :
    ∃ content after, text = '<' :: (content ++ '>' :: after) ∧ Opens content tag attributes selfClosing ∧
      Cuts (offset + content.length + 2) after tokens := by
  cases h with
  | @opening _ _ content after _ _ _ _ hopens hslash hend htag hafter =>
      obtain ⟨rfl, htagOpens⟩ := opens_of_tag hopens hslash hend htag
      exact ⟨content, after, rfl, htagOpens, hafter⟩

namespace Token

theorem Coarser.eq_nil {coarse fine : List Token} (h : Coarser coarse fine) (hfine : fine = []) :
    coarse = [] := by
  cases h with
  | nil => rfl
  | same => cases hfine
  | @piece piece _ _ hpiece =>
      cases piece with
      | nil => exact absurd rfl hpiece
      | cons c piece => cases hfine

/-- A single tag has only itself for coarser tokens. -/
theorem Coarser.eq_opening {coarse fine : List Token} {tag : String} {attributes : Attributes}
    {selfClosing : Bool} (h : Coarser coarse fine)
    (hfine : fine = [.opening tag attributes selfClosing]) :
    coarse = [.opening tag attributes selfClosing] := by
  cases h with
  | nil => cases hfine
  | same hrest =>
      rw [List.cons.injEq] at hfine
      rw [hfine.1, hrest.eq_nil hfine.2]
  | @piece piece _ _ hpiece =>
      cases piece with
      | nil => exact absurd rfl hpiece
      | cons c piece => cases hfine

theorem Coarser.opening_eq {fine : List Token} {tag : String} {attributes : Attributes}
    {selfClosing : Bool} (h : Coarser [.opening tag attributes selfClosing] fine) :
    fine = [.opening tag attributes selfClosing] := by
  cases h with
  | same hrest =>
      cases hrest
      rfl

end Token

/-- A tag reads back exactly when what it contains opens a tag that says the same. -/
theorem Node.readsBack_iff {node : Node} :
    node.ReadsBack ↔
      Token.Opens node.tagContent node.tag node.attributes node.closesItself := by
  unfold Node.ReadsBack
  constructor
  · intro h
    obtain ⟨-, tokens, hcuts, hcoarser⟩ := Token.exists_cuts_of_cut (congrArg TokenCut.fault h)
    rw [h] at hcoarser
    rw [hcoarser.opening_eq] at hcuts
    obtain ⟨content, after, htext, hopens, hafter⟩ := Token.exists_opens_of_cuts hcuts
    cases hafter
    obtain rfl : node.tagContent = content := by simpa using htext
    exact hopens
  · intro h
    have hend : ('<' :: (node.tagContent ++ ['>'])).getLast? ≠ some '<' := by
      simp [List.getLast?_cons]
    obtain ⟨coarse, hcut, hcoarser⟩ := Token.exists_cut_of_cuts (h.cuts .nil) hend
    rw [hcut, hcoarser.eq_opening rfl]

/-! ## Closing tags -/

theorem Token.isTagChar_of_isNameStart {c : Char} (h : isNameStart c = true) : isTagChar c = true := by
  simp only [isNameStart, Bool.or_eq_true, beq_iff_eq] at h
  rcases h with (halpha | rfl) | rfl
  · simp [isTagChar, isWord, toNat_lt_of_isAlpha halpha, Char.isAlphanum, halpha]
  · decide
  · decide

/-- The name that an opening tag says holds characters of names alone. -/
theorem Token.OpeningTag.isTagChar {content : List Char} {tag : String} {attributes : Attributes}
    {selfClosing : Bool} (h : OpeningTag content tag attributes selfClosing) :
    ∀ c ∈ tag.toList, Token.isTagChar c = true := by
  have hleading {text name rest : List Char} (hname : LeadingName text name rest) :
      ∀ c ∈ (String.ofList name).toList, Token.isTagChar c = true := by
    intro c hc
    rw [String.toList_ofList] at hc
    cases hname with
    | none => simp at hc
    | some hstart hmore =>
        rcases List.mem_cons.1 hc with rfl | hc
        · exact isTagChar_of_isNameStart hstart
        · exact hmore c hc
  cases h with
  | selfClosing _ hname => exact hleading hname
  | pair _ hname => exact hleading hname

theorem Token.tagInside_of_isTagChar {name : List Char} (h : ∀ c ∈ name, isTagChar c = true) :
    TagInside name :=
  tagInside_of_class (by decide) (by decide) (by decide) (by decide) h

theorem Token.isBlank_eq_false_of_isTagChar {c : Char} (h : isTagChar c = true) :
    isBlank c = false := by
  simp only [isTagChar, Bool.or_eq_true, beq_iff_eq] at h
  rcases h with (((h | rfl) | rfl) | rfl) | rfl
  · exact isBlank_eq_false_of_isWord h
  all_goals decide

/-- The closing tag of a name is cut as such. -/
theorem Token.cuts_closing {tag : String} (h : ∀ c ∈ tag.toList, isTagChar c = true) {offset : Nat}
    {after : List Char} {tokens : List Token}
    (hafter : Cuts (offset + tag.toList.length + 3) after tokens) :
    Cuts offset ('<' :: '/' :: (tag.toList ++ '>' :: after)) (.closing tag offset :: tokens) := by
  have hclosing := Cuts.closing (tag_eq_ok_iff.2 ⟨tagInside_of_isTagChar h, rfl⟩) hafter
  rwa [trim_eq_self fun c hc => isBlank_eq_false_of_isTagChar (h c hc), String.ofList_toList] at hclosing

/-! ## Plain texts -/

/-- A text in which every brace opens an expression and no angle bracket outside of them opens a tag. -/
inductive PlainText : List Char → Prop
  | nil : PlainText []
  | expression {source rest : List Char} (hsource : IsExpression source) (hrest : PlainText rest) :
      PlainText (source ++ rest)
  | character {c : Char} {rest : List Char} (hbrace : c ≠ '\x7b')
      (htag : c = '<' → opensTag rest = false) (hrest : PlainText rest) : PlainText (c :: rest)

/-- Whether a text comes first. -/
def beginsWithText : List Child → Bool
  | .text _ :: _ => true
  | _ => false

/-- Children whose texts are plain, not empty, and not next to each other. -/
def PlainTexts : List Child → Prop
  | [] => True
  | .text value :: rest =>
      value ≠ "" ∧ PlainText value.toList ∧ beginsWithText rest = false ∧ PlainTexts rest
  | .element _ :: rest => PlainTexts rest

/-- A plain text in front of a tag, or of nothing, is cut into text. -/
theorem exists_cuts_of_plainText {text : List Char} (h : PlainText text) {offset : Nat}
    {after : List Char} {tokens : List Token} (hend : ∀ c, after.head? = some c → c = '<')
    (hafter : Token.Cuts (offset + text.length) after tokens) :
    ∃ pieces : List (List Char), Token.Cuts offset (text ++ after) (pieces.map .text ++ tokens) ∧
      pieces.flatten = text := by
  induction h generalizing offset with
  | nil => exact ⟨[], hafter, rfl⟩
  | @expression source rest hsource _ ih =>
      rw [List.length_append, ← Nat.add_assoc] at hafter
      obtain ⟨pieces, hcuts, rfl⟩ := ih hafter
      obtain ⟨inside, rfl⟩ := hsource.eq_cons
      refine ⟨('\x7b' :: inside) :: pieces, ?_, rfl⟩
      rw [List.append_assoc]
      exact .expression (expression_eq_ok_iff.2 ⟨hsource, rfl⟩) hcuts
  | @character c rest hbrace htag _ ih =>
      rw [List.length_cons, Nat.add_comm rest.length, ← Nat.add_assoc] at hafter
      obtain ⟨pieces, hcuts, hpieces⟩ := ih hafter
      refine ⟨[c] :: pieces, .character hbrace ?_ hcuts, by simp [hpieces]⟩
      intro hc
      have hrest := htag hc
      cases rest with
      | nil =>
          cases after with
          | nil => rfl
          | cons d after =>
              obtain rfl := hend d rfl
              rfl
      | cons d rest => exact hrest

/-! ## Children of pieces -/

theorem content_of_texts {name : Nat → String} {n m : Nat} {tokens : List Token} {rest : List Child}
    (h : Content name n tokens rest m) (pieces : List (List Char)) :
    Content name n (pieces.map .text ++ tokens)
      (pieces.map (fun piece => .text (String.ofList piece)) ++ rest) m := by
  induction pieces with
  | nil => exact h
  | cons piece pieces ih => exact .text ih

theorem joinFrom_texts (pending : List Char) (pieces : List (List Char)) (rest : List Child) :
    joinFrom pending (pieces.map (fun piece => .text (String.ofList piece)) ++ rest) =
      joinFrom (pending ++ pieces.flatten) rest := by
  induction pieces generalizing pending with
  | nil => simp
  | cons piece pieces ih => simp [joinFrom, ih]

/-- What a tree must have to be read back: tags that read back, and plain texts. -/
def Node.Readable (root : Node) : Prop :=
  ∀ node ∈ root.descendants, node.ReadsBack ∧ PlainTexts node.children

/-- Pieces that make the given children, up to identifiers, whatever text comes before them. -/
structure Makes (pieces children : List Child) : Prop where
  joined : unnamedChildren (joinTexts pieces) = unnamedChildren children
  pending : beginsWithText children = false →
    ∀ pending, joinFrom pending pieces = textChild pending ++ joinTexts pieces

theorem makes_nil : Makes [] [] :=
  ⟨rfl, fun _ _ => (List.append_nil _).symm⟩

theorem Makes.element {pieces children : List Child} (h : Makes pieces children) {node node' : Node}
    (hnode : node'.unnamed = node.unnamed) :
    Makes (.element node' :: pieces) (.element node :: children) := by
  refine ⟨?_, fun _ _ => rfl⟩
  simp only [joinTexts, joinFrom, textChild, List.isEmpty_nil, if_true, List.nil_append,
    unnamedChildren, hnode]
  exact congrArg _ h.joined

theorem Makes.text {pieces children : List Child} (h : Makes pieces children) {value : String}
    {texts : List (List Char)} (htexts : texts.flatten = value.toList) (hvalue : value ≠ "")
    (hchildren : beginsWithText children = false) :
    Makes (texts.map (fun piece => .text (String.ofList piece)) ++ pieces)
      (.text value :: children) := by
  refine ⟨?_, by simp [beginsWithText]⟩
  have hchild : textChild value.toList = [.text value] := by
    simp [textChild, hvalue]
  rw [joinTexts, joinFrom_texts, List.nil_append, htexts, h.pending hchildren, hchild,
    unnamedChildren_append, h.joined]
  rfl

theorem mem_descendants_self (node : Node) : node ∈ node.descendants := by
  obtain ⟨id, tag, attributes, children⟩ := node
  simp [Node.descendants]

theorem Node.children_eq_nil_of_closesItself {node : Node} (h : node.closesItself = true) :
    node.children = [] := by
  simp only [Node.closesItself, Bool.and_eq_true, List.isEmpty_iff] at h
  exact h.1

theorem Node.render_head? (node : Node) : node.render.head? = some '<' := by
  cases h : node.closesItself with
  | true => rw [Node.render_of_closesItself h, List.head?_cons]
  | false => rw [Node.render_of_pair h, List.head?_cons]

theorem Node.render_getLast? (node : Node) : node.render.getLast? = some '>' := by
  cases h : node.closesItself with
  | true => simp [Node.render_of_closesItself h, List.getLast?_cons]
  | false => simp [Node.render_of_pair h, List.getLast?_cons]

/-- Children that do not begin with a text, and a tag after them, begin with a tag. -/
theorem head?_renderChildren {children : List Child} (h : beginsWithText children = false)
    {after : List Char} (hend : after.head? = some '<') :
    (renderChildren children ++ after).head? = some '<' := by
  match children with
  | [] => exact hend
  | .text value :: rest => simp [beginsWithText] at h
  | .element node :: rest => simp [renderChildren, node.render_head?]

/-! ## Reading piece by piece -/

/-- Wherever a text stands, it is cut into the tokens of one element, up to identifiers. -/
def ReadsAs (name : Nat → String) (text : List Char) (node : Node) : Prop :=
  ∀ (offset : Nat) (after : List Char) (tokens : List Token), Token.Cuts (offset + text.length) after tokens →
    ∃ inner, Token.Cuts offset (text ++ after) (inner ++ tokens) ∧
      ∀ n, ∃ node' m, Element name n inner node' m ∧ node'.unnamed = node.unnamed

/-- Wherever a text stands in front of a tag, it is cut into the tokens of the given children. -/
def ReadsInside (name : Nat → String) (text : List Char) (children : List Child) : Prop :=
  ∀ (offset : Nat) (after : List Char) (tokens : List Token), after.head? = some '<' →
    Token.Cuts (offset + text.length) after tokens →
    ∃ inner, Token.Cuts offset (text ++ after) (inner ++ tokens) ∧
      ∀ n, ∃ pieces m, Content name n inner pieces m ∧ Makes pieces children

section

variable {name : Nat → String} {content source front : List Char} {tag : String} {attributes : Attributes}
  {children : List Child} {node : Node}

theorem Token.Opens.readsAs (h : Token.Opens content tag attributes true) (id : String) :
    ReadsAs name ('<' :: (content ++ ['>'])) (.mk id tag attributes []) := by
  intro offset after tokens hafter
  have htag : Token.Cuts (offset + content.length + 2) after tokens := by
    simpa [Nat.add_assoc] using hafter
  exact ⟨[.opening tag attributes true], by simpa using h.cuts htag, fun n => ⟨_, _, .selfClosing, rfl⟩⟩

/-- What a pair of tags encloses is read inside of it. -/
theorem ReadsInside.pair (h : ReadsInside name source children)
    (hopens : Token.Opens content tag attributes false) (id : String) :
    ReadsAs name ('<' :: (content ++ '>' :: (source ++ '<' :: '/' :: (tag.toList ++ ['>']))))
      (.mk id tag attributes children) := by
  intro offset after tokens hafter
  have hclose : Token.Cuts (offset + content.length + 2 + source.length + tag.toList.length + 3) after tokens := by
    convert hafter using 1
    simp
    omega
  obtain ⟨inner, hcuts, hcontent⟩ := h _ _ _ rfl (Token.cuts_closing hopens.reads.isTagChar hclose)
  refine ⟨.opening tag attributes false :: (inner ++ [.closing tag (offset + content.length + 2 + source.length)]),
    by simpa using hopens.cuts hcuts, fun n => ?_⟩
  obtain ⟨pieces, m, hpieces, hmakes⟩ := hcontent (n + 1)
  exact ⟨_, m, .pair hpieces, by simp [Node.unnamed, hmakes.joined]⟩

theorem ReadsInside.nil : ReadsInside name [] [] :=
  fun _ _ _ _ hafter => ⟨[], hafter, fun n => ⟨[], n, .nil, makes_nil⟩⟩

theorem ReadsInside.element (h : ReadsInside name source children) (hnode : ReadsAs name front node) :
    ReadsInside name (front ++ source) (.element node :: children) := by
  intro offset after tokens hend hafter
  rw [List.length_append, ← Nat.add_assoc] at hafter
  obtain ⟨back, hback, hcontent⟩ := h _ _ _ hend hafter
  obtain ⟨first, hfirst, helement⟩ := hnode _ _ _ hback
  refine ⟨first ++ back, by simpa using hfirst, fun n => ?_⟩
  obtain ⟨node', k, hnode', hunnamed⟩ := helement n
  obtain ⟨pieces, m, hpieces, hmakes⟩ := hcontent k
  exact ⟨_, m, .element hnode' hpieces, hmakes.element hunnamed⟩

/-- A plain text stands in front of a tag, or of nothing. -/
theorem ReadsInside.text (h : ReadsInside name source children) {value : String} (hvalue : value ≠ "")
    (hplain : PlainText value.toList) (hchildren : beginsWithText children = false)
    (hsource : ∀ {after : List Char}, after.head? = some '<' → (source ++ after).head? = some '<') :
    ReadsInside name (value.toList ++ source) (.text value :: children) := by
  intro offset after tokens hend hafter
  rw [List.length_append, ← Nat.add_assoc] at hafter
  obtain ⟨inner, hcuts, hcontent⟩ := h _ _ _ hend hafter
  have hnext : ∀ c, (source ++ after).head? = some c → c = '<' := by
    intro c hc
    rw [hsource hend, Option.some.injEq] at hc
    exact hc.symm
  obtain ⟨texts, htexts, hflatten⟩ := exists_cuts_of_plainText hplain hnext hcuts
  refine ⟨texts.map .text ++ inner, by simpa using htexts, fun n => ?_⟩
  obtain ⟨pieces, m, hpieces, hmakes⟩ := hcontent n
  exact ⟨_, m, content_of_texts hpieces texts, hmakes.text hflatten hvalue hchildren⟩

/-- A plain text alone is read as one child, or as none when it is empty. -/
theorem PlainText.readsInside (h : PlainText source) : ReadsInside name source (textChild source) := by
  cases source with
  | nil => exact .nil
  | cons c rest =>
      have htext := @ReadsInside.text name [] [] .nil (String.ofList (c :: rest)) (by simp)
        (by rwa [String.toList_ofList]) rfl id
      simpa [textChild] using htext

end

theorem Token.isText_letters {piece : List Char} : ∀ token ∈ letters piece, token.isText = true := by
  intro token htoken
  obtain ⟨c, -, rfl⟩ := List.mem_map.1 htoken
  rfl

/-- A text that is read as an element is read so whatever plain text is around it. -/
theorem ReadsAs.exists_read {name : Nat → String} {text : List Char} {root : Node} (h : ReadsAs name text root)
    (hlast : text.getLast? = some '>') {front back : List Char} (hfront : ∀ c ∈ front, Token.isPlain c = true)
    (hback : ∀ c ∈ back, Token.isPlain c = true) :
    ∃ root', Fragment.read name (front ++ (text ++ back)) = .ok root' ∧ root'.unnamed = root.unnamed := by
  have hnil : Token.Cuts (front.length + text.length + back.length) [] [] := .nil
  have hafter := Token.cuts_run hback hnil
  rw [List.append_nil] at hafter
  obtain ⟨inner, hinner, helement⟩ := h _ _ _ hafter
  obtain ⟨root', m, hroot', hunnamed⟩ := helement 0
  rw [← Nat.zero_add front.length] at hinner
  have hcuts := Token.cuts_run hfront hinner
  refine ⟨root', ?_, hunnamed⟩
  rw [Fragment.read_eq_conclude hcuts, Reading.conclude_eq_ok_iff]
  · exact ⟨Token.letters front, inner, Token.letters back, m, by simp, Token.isText_letters,
      Token.isText_letters, hroot'⟩
  · rw [List.getLast?_append, List.getLast?_append, hlast]
    cases hend : back.getLast? with
    | none => simp
    | some c =>
        have hplain := hback c (List.mem_of_getLast? hend)
        simp only [Token.isPlain, Bool.and_eq_true, bne_iff_ne] at hplain
        simpa using hplain.1

/-! ## Reading canonical text -/

mutual

/-- The canonical text of a tree that can be read back is cut into the tokens of that tree. -/
theorem Node.Readable.readsAs (name : Nat → String) (node : Node) (h : node.Readable) :
    ReadsAs name node.render node := by
  have hroot := h node (mem_descendants_self node)
  have hopens := Node.readsBack_iff.1 hroot.1
  match hcloses : node.closesItself with
  | true =>
      have hnone := Node.children_eq_nil_of_closesItself hcloses
      rw [Node.render_of_closesItself hcloses]
      rw [hcloses] at hopens
      obtain ⟨id, tag, attributes, children⟩ := node
      obtain rfl : children = [] := hnone
      exact hopens.readsAs id
  | false =>
      obtain ⟨id, tag, attributes, children⟩ := node
      rw [Node.render_of_pair hcloses]
      rw [hcloses] at hopens
      have hinside : ∀ other ∈ descendantsOf children, other.ReadsBack ∧ PlainTexts other.children :=
        fun other hother => h other (by simp [Node.descendants, hother])
      exact (readsInside_of_readable name children hroot.2 hinside).pair hopens id

theorem readsInside_of_readable (name : Nat → String) (children : List Child) (hplain : PlainTexts children)
    (h : ∀ node ∈ descendantsOf children, node.ReadsBack ∧ PlainTexts node.children) :
    ReadsInside name (renderChildren children) children := by
  match children with
  | [] => exact .nil
  | .text value :: rest =>
      obtain ⟨hvalue, htext, hrest, hmore⟩ := hplain
      exact (readsInside_of_readable name rest hmore h).text hvalue htext hrest (head?_renderChildren hrest)
  | .element node :: rest =>
      have hnode : node.Readable := fun other hother => h other (by simp [descendantsOf, hother])
      have hrest := readsInside_of_readable name rest hplain
        fun other hother => h other (by simp [descendantsOf, hother])
      exact hrest.element (hnode.readsAs name node)

end

/-- A tree that can be read back is read from its canonical text, whatever plain text is around it. -/
theorem Fragment.read_of_readable {root : Node} (h : root.Readable) (name : Nat → String)
    {front back : List Char} (hfront : ∀ c ∈ front, Token.isPlain c = true)
    (hback : ∀ c ∈ back, Token.isPlain c = true) :
    ∃ root', read name (front ++ (root.render ++ back)) = .ok root' ∧
      root'.unnamed = root.unnamed :=
  (h.readsAs name root).exists_read root.render_getLast? hfront hback

end ComponentBuilder.Markup
