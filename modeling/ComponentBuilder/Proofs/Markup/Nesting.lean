import ComponentBuilder.Proofs.Markup.Grammar

/-!
# Well-nested fragments

The tokens of a fragment form a word of a context-free grammar: texts and elements, an element being a
self-closing tag or a pair of tags of one name around texts and elements.  `Element` and `Content` are
that grammar with the tree each word stands for.  The reader with its stack of open elements builds
exactly the tree of the word, and refuses every other list of tokens for the reason that applies to it.
-/

namespace ComponentBuilder.Markup

open Text

/-! ## The grammar -/

/-- A text as a child, unless it is empty. -/
def textChild (text : List Char) : List Child :=
  if text.isEmpty then [] else [.text (String.ofList text)]

/-- Pieces of content after the text `pending`, with neighbouring texts joined and empty ones dropped. -/
def joinFrom (pending : List Char) : List Child → List Child
  | [] => textChild pending
  | .text value :: rest => joinFrom (pending ++ value.toList) rest
  | .element node :: rest => textChild pending ++ .element node :: joinFrom [] rest

/-- The children that pieces of content make: their texts are the maximal ones that are not empty. -/
def joinTexts (pieces : List Child) : List Child :=
  joinFrom [] pieces

mutual

/--
The tokens of one element and the element they stand for.  The elements opened before it are `n` in
number, and `m` are opened when it ends; `name` gives the identifier of the element opened at each count.
-/
inductive Element (name : Nat → String) : Nat → List Token → Node → Nat → Prop
  | selfClosing {n : Nat} {tag : String} {attributes : Attributes} :
      Element name n [.opening tag attributes true] (.mk (name n) tag attributes []) (n + 1)
  | pair {n m offset : Nat} {tag : String} {attributes : Attributes} {inner : List Token}
      {pieces : List Child} (hinner : Content name (n + 1) inner pieces m) :
      Element name n (.opening tag attributes false :: (inner ++ [.closing tag offset]))
        (.mk (name n) tag attributes (joinTexts pieces)) m

/-- The tokens of texts and elements in any order, and the pieces they stand for. -/
inductive Content (name : Nat → String) : Nat → List Token → List Child → Nat → Prop
  | nil {n : Nat} : Content name n [] [] n
  | text {n m : Nat} {piece : List Char} {tokens : List Token} {pieces : List Child}
      (hrest : Content name n tokens pieces m) :
      Content name n (.text piece :: tokens) (.text (String.ofList piece) :: pieces) m
  | element {n k m : Nat} {first rest : List Token} {node : Node} {pieces : List Child}
      (hfirst : Element name n first node k) (hrest : Content name k rest pieces m) :
      Content name n (first ++ rest) (.element node :: pieces) m

end

/-- A token of text. -/
def Token.isText : Token → Bool
  | .text _ => true
  | _ => false

/-- The tokens of one element with nothing but text around it. -/
def IsFragment (name : Nat → String) (tokens : List Token) (root : Node) : Prop :=
  ∃ front inner back m, tokens = front ++ inner ++ back ∧ (∀ token ∈ front, token.isText = true) ∧
    (∀ token ∈ back, token.isText = true) ∧ Element name 0 inner root m

/-- The tokens of texts and elements, and the elements at the top level. -/
def WellNested (name : Nat → String) (tokens : List Token) (roots : List Node) : Prop :=
  ∃ pieces m, Content name 0 tokens pieces m ∧ pieces.filterMap Child.element? = roots

theorem Content.append {name : Nat → String} {n k m : Nat} {first second : List Token}
    {pieces pieces' : List Child} (hfirst : Content name n first pieces k)
    (hsecond : Content name k second pieces' m) :
    Content name n (first ++ second) (pieces ++ pieces') m := by
  match hfirst with
  | .nil => exact hsecond
  | .text hrest => exact .text (hrest.append hsecond)
  | .element hinner hrest =>
      rw [List.append_assoc]
      exact .element hinner (hrest.append hsecond)

theorem content_of_isText {name : Nat → String} {tokens : List Token}
    (h : ∀ token ∈ tokens, token.isText = true) (n : Nat) :
    ∃ pieces, Content name n tokens pieces n ∧ pieces.filterMap Child.element? = [] := by
  induction tokens with
  | nil => exact ⟨[], .nil, rfl⟩
  | cons token tokens ih =>
      obtain ⟨pieces, hcontent, hnone⟩ := ih fun other hother => h other (by simp [hother])
      have htext := h token (by simp)
      cases token with
      | text piece => exact ⟨_, .text hcontent, hnone⟩
      | opening | closing => simp [Token.isText] at htext

/-- Content without elements is text. -/
theorem Content.isText {name : Nat → String} {n m : Nat} {tokens : List Token} {pieces : List Child}
    (h : Content name n tokens pieces m) (hnone : pieces.filterMap Child.element? = []) :
    ∀ token ∈ tokens, token.isText = true := by
  match h with
  | .nil => simp
  | .text hrest =>
      intro token htoken
      rcases List.mem_cons.1 htoken with rfl | htoken
      · rfl
      · exact hrest.isText hnone token htoken
  | .element hinner hrest => simp [Child.element?] at hnone

/-- Content with an element is text, then that element, then the rest. -/
theorem Content.exists_element {name : Nat → String} {n m : Nat} {tokens : List Token}
    {pieces : List Child} {root : Node} {roots : List Node} (h : Content name n tokens pieces m)
    (hroots : pieces.filterMap Child.element? = root :: roots) :
    ∃ front inner back rest k, tokens = front ++ inner ++ back ∧
      (∀ token ∈ front, token.isText = true) ∧ Element name n inner root k ∧
      Content name k back rest m ∧ rest.filterMap Child.element? = roots := by
  match h with
  | .nil => simp at hroots
  | .text hrest =>
      obtain ⟨front, inner, back, rest, k, rfl, hfront, hinner, hback, hothers⟩ :=
        hrest.exists_element hroots
      exact ⟨_ :: front, inner, back, rest, k, rfl, by simpa [Token.isText] using hfront, hinner, hback,
        hothers⟩
  | .element hinner hrest =>
      simp only [List.filterMap_cons, Child.element?, List.cons.injEq] at hroots
      obtain ⟨rfl, hothers⟩ := hroots
      exact ⟨[], _, _, _, _, rfl, by simp, hinner, hrest, hothers⟩

/-- A fragment is content with one element at the top level. -/
theorem isFragment_iff_wellNested {name : Nat → String} {tokens : List Token} {root : Node} :
    IsFragment name tokens root ↔ WellNested name tokens [root] := by
  constructor
  · rintro ⟨front, inner, back, m, rfl, hfront, hback, hinner⟩
    obtain ⟨before, hbefore, hnone⟩ := @content_of_isText name _ hfront 0
    obtain ⟨after, hafter, hnone'⟩ := @content_of_isText name _ hback m
    refine ⟨before ++ (.element root :: after), m, ?_, by simp [hnone, hnone', Child.element?]⟩
    rw [List.append_assoc]
    exact hbefore.append (.element hinner hafter)
  · rintro ⟨pieces, m, hcontent, hroots⟩
    obtain ⟨front, inner, back, rest, k, rfl, hfront, hinner, hback, hnone⟩ :=
      hcontent.exists_element hroots
    exact ⟨front, inner, back, k, rfl, hfront, hback.isText hnone, hinner⟩

/-! ## The reader on well-nested tokens -/

namespace Reading

/-- A state with another count of opened elements. -/
def counted (state : Reading) (opened : Nat) : Reading :=
  { state with opened := opened }

/-- What reading a piece of content does to a state, apart from the count. -/
def absorb (state : Reading) : Child → Reading
  | .text value => { state with text := value.toList :: state.text }
  | .element node => state.flush.place node

@[simp] theorem counted_counted (state : Reading) (n m : Nat) :
    (state.counted n).counted m = state.counted m := rfl

@[simp] theorem counted_opened (state : Reading) (n : Nat) : (state.counted n).opened = n := rfl

theorem flush_nil (roots : List Node) (text : List (List Char)) (opened : Nat) :
    (⟨[], roots, text, opened⟩ : Reading).flush = ⟨[], roots, [], opened⟩ := rfl

/-- The pending text becomes a child of the innermost open element. -/
theorem flush_cons (top : OpenElement) (outer : List OpenElement) (roots : List Node)
    (text : List (List Char)) (opened : Nat) :
    (⟨top :: outer, roots, text, opened⟩ : Reading).flush =
      ⟨{ top with children := (textChild text.reverse.flatten).reverse ++ top.children } :: outer,
        roots, [], opened⟩ := by
  unfold flush textChild
  by_cases hempty : text.reverse.flatten.isEmpty = true
  · simp only [hempty, if_true, List.reverse_nil, List.nil_append]
  · simp only [hempty, Bool.false_eq_true, if_false, List.reverse_cons, List.reverse_nil,
      List.nil_append, List.cons_append]

theorem flush_text (state : Reading) : state.flush.text = [] := by
  obtain ⟨stack, roots, text, opened⟩ := state
  cases stack with
  | nil => rfl
  | cons top outer => rw [flush_cons]

theorem flush_counted (state : Reading) (n : Nat) : (state.counted n).flush = state.flush.counted n := by
  obtain ⟨stack, roots, text, opened⟩ := state
  cases stack with
  | nil => rfl
  | cons top outer => rw [flush_cons, counted, flush_cons, counted]

theorem place_counted (state : Reading) (node : Node) (n : Nat) :
    (state.counted n).place node = (state.place node).counted n := by
  obtain ⟨stack, roots, text, opened⟩ := state
  cases stack <;> rfl

theorem steps_append (name : Nat → String) (state : Reading) (first second : List Token) :
    state.steps name (first ++ second) =
      match state.steps name first with
      | .error e => .error e
      | .ok middle => middle.steps name second := by
  induction first generalizing state with
  | nil => rfl
  | cons token first ih =>
      simp only [List.cons_append, steps]
      cases state.step name token with
      | error e => rfl
      | ok next => exact ih next

theorem steps_append_of_eq_ok {name : Nat → String} {state middle : Reading} {first : List Token}
    (h : state.steps name first = .ok middle) (second : List Token) :
    state.steps name (first ++ second) = middle.steps name second := by
  rw [steps_append, h]

/-- The pending text and the pieces end up among the children of the innermost open element. -/
theorem flush_foldl_absorb (top : OpenElement) (outer : List OpenElement) (roots : List Node)
    (text : List (List Char)) (opened : Nat) (pieces : List Child) :
    (pieces.foldl absorb ⟨top :: outer, roots, text, opened⟩).flush =
      ⟨{ top with children := (joinFrom text.reverse.flatten pieces).reverse ++ top.children } :: outer,
        roots, [], opened⟩ := by
  induction pieces generalizing top text with
  | nil => rw [List.foldl_nil, flush_cons, joinFrom]
  | cons piece pieces ih =>
      cases piece with
      | text value =>
          rw [List.foldl_cons, absorb, ih]
          simp [joinFrom]
      | element node =>
          rw [List.foldl_cons, absorb, flush_cons, place, ih]
          simp [joinFrom]

/-- A state in which an element has just been opened. -/
def enter (state : Reading) (element : OpenElement) : Reading :=
  { state.flush with stack := element :: state.flush.stack }

theorem step_opening (name : Nat → String) (state : Reading) (n : Nat) (tag : String)
    (attributes : Attributes) :
    (state.counted n).step name (.opening tag attributes false) =
      .ok ((state.enter ⟨name n, tag, attributes, []⟩).counted (n + 1)) := by
  simp only [step, flush_counted, counted_opened, Bool.false_eq_true, if_false]
  rfl

theorem step_selfClosing (name : Nat → String) (state : Reading) (n : Nat) (tag : String)
    (attributes : Attributes) :
    (state.counted n).step name (.opening tag attributes true) =
      .ok ((state.flush.place (.mk (name n) tag attributes [])).counted (n + 1)) := by
  simp only [step, flush_counted, counted_opened, if_true]
  rw [← place_counted]
  rfl

/-- Content inside an element that has just been opened. -/
theorem flush_foldl_absorb_enter (state : Reading) (element : OpenElement) (pieces : List Child) :
    (pieces.foldl absorb (state.enter element)).flush =
      { state.flush with
        stack := { element with children := (joinTexts pieces).reverse ++ element.children } ::
          state.flush.stack } := by
  have henter : state.enter element =
      ⟨element :: state.flush.stack, state.flush.roots, [], state.flush.opened⟩ := by
    rw [enter, ← flush_text state]
  rw [henter, flush_foldl_absorb]
  simp only [flush_text, joinTexts, List.reverse_nil, List.flatten_nil]

/-- A closing tag after the content of the element it names. -/
theorem step_closing_of_enter (name : Nat → String) (state : Reading) (id tag : String)
    (attributes : Attributes) (pieces : List Child) (m offset : Nat) :
    ((pieces.foldl absorb (state.enter ⟨id, tag, attributes, []⟩)).counted m).step name
        (.closing tag offset) =
      .ok ((state.flush.place (.mk id tag attributes (joinTexts pieces))).counted m) := by
  simp only [step, flush_counted, flush_foldl_absorb_enter]
  rw [← place_counted]
  simp [counted, OpenElement.close]

mutual

/-- The reader puts an element of the grammar in its place. -/
theorem steps_of_element {name : Nat → String} {n m : Nat} {tokens : List Token} {node : Node}
    (h : Element name n tokens node m) (state : Reading) :
    (state.counted n).steps name tokens = .ok ((state.flush.place node).counted m) := by
  match h with
  | .selfClosing => simp only [steps, step_selfClosing]
  | .pair hinner =>
      rw [steps, step_opening]
      dsimp only
      rw [steps_append_of_eq_ok (steps_of_content hinner _), steps, step_closing_of_enter]
      rfl

/-- The reader absorbs the pieces of content one after the other. -/
theorem steps_of_content {name : Nat → String} {n m : Nat} {tokens : List Token}
    {pieces : List Child} (h : Content name n tokens pieces m) (state : Reading) :
    (state.counted n).steps name tokens = .ok ((pieces.foldl absorb state).counted m) := by
  match h with
  | .nil => rfl
  | @Content.text _ _ _ piece _ _ hrest =>
      have hstep : (state.counted n).step name (.text piece) =
          .ok ((state.absorb (.text (String.ofList piece))).counted n) := by
        simp [step, absorb, counted]
      rw [steps, hstep]
      exact steps_of_content hrest _
  | .element hfirst hrest =>
      rw [steps_append_of_eq_ok (steps_of_element hfirst state)]
      exact steps_of_content hrest _

end

end Reading

end ComponentBuilder.Markup
