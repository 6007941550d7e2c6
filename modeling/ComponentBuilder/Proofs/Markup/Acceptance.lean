import ComponentBuilder.Proofs.Markup.Nesting

/-!
# Which fragments are accepted

A list of tokens is well nested, or closes something that is not open, or leaves the reader with a
mismatch whatever was read before.  From this case distinction the reader accepts exactly the
fragments of the grammar, and the number of elements at the top level tells the remaining faults apart.
-/

namespace ComponentBuilder.Markup

open Text

namespace Reading

/-! ## Concluding -/

/-- Read tokens and give the one element of the fragment. -/
def conclude (name : Nat → String) (state : Reading) (tokens : List Token) : Except ParseError Node :=
  match state.steps name tokens with
  | .error e => .error e
  | .ok last => last.finish

theorem conclude_append {name : Nat → String} {state middle : Reading} {first : List Token}
    (h : state.steps name first = .ok middle) (second : List Token) :
    state.conclude name (first ++ second) = middle.conclude name second := by
  rw [conclude, steps_append_of_eq_ok h, conclude]

theorem conclude_cons {name : Nat → String} {state next : Reading} {token : Token}
    (h : state.step name token = .ok next) (rest : List Token) :
    state.conclude name (token :: rest) = next.conclude name rest := by
  simp only [conclude, steps, h]

theorem conclude_cons_of_error {name : Nat → String} {state : Reading} {token : Token} {e : ParseError}
    (h : state.step name token = .error e) (rest : List Token) :
    state.conclude name (token :: rest) = .error e := by
  simp only [conclude, steps, h]

/-- At the top level, elements become roots and texts are dropped. -/
theorem exists_foldl_absorb (roots : List Node) (text : List (List Char)) (opened : Nat)
    (pieces : List Child) :
    ∃ text', pieces.foldl absorb ⟨[], roots, text, opened⟩ =
      ⟨[], (pieces.filterMap Child.element?).reverse ++ roots, text', opened⟩ := by
  induction pieces generalizing roots text with
  | nil => exact ⟨text, rfl⟩
  | cons piece pieces ih =>
      cases piece with
      | text value => exact ih roots (value.toList :: text)
      | element node =>
          obtain ⟨text', htext⟩ := ih (node :: roots) []
          refine ⟨text', ?_⟩
          rw [List.foldl_cons, absorb, flush_nil, place, htext]
          simp [Child.element?]

/-- What is concluded from well-nested tokens depends on the elements at the top level alone. -/
theorem conclude_of_wellNested {name : Nat → String} {tokens : List Token} {roots : List Node}
    (h : WellNested name tokens roots) :
    start.conclude name tokens = (⟨[], roots.reverse, [], 0⟩ : Reading).finish := by
  obtain ⟨pieces, m, hcontent, rfl⟩ := h
  have hsteps := steps_of_content hcontent start
  rw [show start.counted 0 = start from rfl] at hsteps
  obtain ⟨text, htext⟩ := exists_foldl_absorb [] [] 0 pieces
  rw [start, htext, List.append_nil] at hsteps
  rw [conclude, start, hsteps]
  rfl

/-- With no element at the top level there is no root. -/
theorem finish_of_no_root : (⟨[], [], [], 0⟩ : Reading).finish = .error ⟨.noRoot, none⟩ := rfl

/-- With several elements at the top level there is no one root. -/
theorem finish_of_several (a b : Node) (roots : List Node) :
    (⟨[], (a :: b :: roots).reverse, [], 0⟩ : Reading).finish =
      .error ⟨.severalRoots ((a :: b :: roots).map Node.tag), none⟩ := by
  nth_rewrite 2 [← List.reverse_reverse (a :: b :: roots)]
  cases hreverse : (a :: b :: roots).reverse with
  | nil => simp at hreverse
  | cons c others =>
      cases others with
      | nil =>
          have hlength := congrArg List.length hreverse
          simp at hlength
      | cons d others => rfl

/-! ## Mismatches -/

/-- Reading fails because tags do not match. -/
def Mismatch (name : Nat → String) (state : Reading) (tokens : List Token) : Prop :=
  ∃ e, state.conclude name tokens = .error e ∧ e.family = .mismatchedTag

/-- A closing tag where nothing is open. -/
theorem mismatch_of_nothing_open {name : Nat → String} {state : Reading} (hstack : state.stack = [])
    (tag : String) (offset : Nat) (rest : List Token) :
    Mismatch name state (.closing tag offset :: rest) := by
  refine ⟨⟨.nothingOpen tag, some offset⟩, conclude_cons_of_error ?_ rest, rfl⟩
  simp [step, flush, hstack]

/-- A closing tag of another name than that of the element it would close. -/
theorem mismatch_of_wrong_name {name : Nat → String} {tag tag' : String} (hne : tag' ≠ tag)
    (state : Reading) (id : String) (attributes : Attributes) (pieces : List Child) (m offset : Nat)
    (rest : List Token) :
    Mismatch name ((pieces.foldl absorb (state.enter ⟨id, tag, attributes, []⟩)).counted m)
      (.closing tag' offset :: rest) := by
  refine ⟨⟨.wrongClosing tag tag', some offset⟩, conclude_cons_of_error ?_ rest, rfl⟩
  simp only [step, flush_counted, flush_foldl_absorb_enter]
  simp [counted, hne]

/-- The end of the text inside an element. -/
theorem mismatch_of_never_closed {name : Nat → String} (state : Reading) (element : OpenElement)
    (pieces : List Child) (m : Nat) :
    Mismatch name ((pieces.foldl absorb (state.enter element)).counted m) [] := by
  have hflush := flush_foldl_absorb_enter state element pieces
  generalize pieces.foldl absorb (state.enter element) = last at hflush ⊢
  obtain ⟨stack, roots, text, opened⟩ := last
  cases stack with
  | nil =>
      rw [flush_nil, Reading.mk.injEq] at hflush
      exact absurd hflush.1 (List.cons_ne_nil _ _).symm
  | cons top outer => exact ⟨⟨.neverClosed top.tag, none⟩, rfl, rfl⟩

theorem Mismatch.append {name : Nat → String} {state middle : Reading} {first second : List Token}
    (h : Mismatch name middle second) (hfirst : state.steps name first = .ok middle) :
    Mismatch name state (first ++ second) := by
  obtain ⟨e, he, hfamily⟩ := h
  exact ⟨e, by rw [conclude_append hfirst, he], hfamily⟩

/-- Content up to a closing tag that closes none of its elements. -/
def ClosesOuter (name : Nat → String) (n : Nat) (tokens : List Token) : Prop :=
  ∃ inner pieces m tag offset rest, tokens = inner ++ .closing tag offset :: rest ∧
    Content name n inner pieces m

/-- Tokens that make a mismatch of every state. -/
def Mismatched (name : Nat → String) (n : Nat) (tokens : List Token) : Prop :=
  ∀ state : Reading, Mismatch name (state.counted n) tokens

/-- Tokens are content, or close something outside of them, or do not match. -/
theorem content_cases (name : Nat → String) (tokens : List Token) (n : Nat) :
    (∃ pieces m, Content name n tokens pieces m) ∨ ClosesOuter name n tokens ∨
      Mismatched name n tokens := by
  induction hlength : tokens.length using Nat.strongRecOn generalizing tokens n with
  | _ length ih =>
    cases tokens with
    | nil => exact .inl ⟨[], n, .nil⟩
    | cons token rest =>
        rw [List.length_cons] at hlength
        -- Content in front of the cases of what comes after it.
        have hfront {first : List Token} {pieces : List Child} {k : Nat} {back : List Token}
            (hfirst : Content name n first pieces k) (hback : back.length < length) :
            (∃ pieces m, Content name n (first ++ back) pieces m) ∨ ClosesOuter name n (first ++ back) ∨
              Mismatched name n (first ++ back) := by
          rcases ih _ hback back k rfl with ⟨pieces', m, hcontent⟩ |
            ⟨inner, pieces', m, tag, offset, more, rfl, hcontent⟩ | hmismatch
          · exact .inl ⟨_, m, hfirst.append hcontent⟩
          · exact .inr (.inl ⟨_, _, m, tag, offset, more, (List.append_assoc ..).symm,
              hfirst.append hcontent⟩)
          · exact .inr (.inr fun state => (hmismatch _).append (steps_of_content hfirst state))
        cases token with
        | text piece => exact hfront (.text .nil) (by omega)
        | closing tag offset => exact .inr (.inl ⟨[], [], n, tag, offset, rest, rfl, .nil⟩)
        | opening tag attributes selfClosing =>
            cases selfClosing with
            | true => exact hfront (.element .selfClosing .nil) (by omega)
            | false =>
                have hopen (state : Reading) : (state.counted n).steps name
                    [.opening tag attributes false] =
                      .ok ((state.enter ⟨name n, tag, attributes, []⟩).counted (n + 1)) := by
                  simp only [steps, step_opening]
                rcases ih _ (by omega) rest (n + 1) rfl with ⟨pieces, m, hcontent⟩ |
                  ⟨inner, pieces, m, tag', offset, back, rfl, hcontent⟩ | hmismatch
                · refine .inr (.inr fun state => ?_)
                  have hend := @mismatch_of_never_closed name state
                    ⟨name n, tag, attributes, []⟩ pieces m
                  have hinner := hend.append (steps_of_content hcontent _)
                  rw [List.append_nil] at hinner
                  exact hinner.append (hopen state)
                · by_cases htag : tag' = tag
                  · subst htag
                    have hpair : Element name n (.opening tag' attributes false ::
                        (inner ++ [.closing tag' offset])) _ m := .pair hcontent
                    have hall := @hfront _ _ _ back (.element hpair .nil)
                      (by simp only [List.length_append, List.length_cons] at hlength; omega)
                    simpa using hall
                  · refine .inr (.inr fun state => ?_)
                    have hend := @mismatch_of_wrong_name name _ _ htag state (name n) attributes
                      pieces m offset back
                    exact (hend.append (steps_of_content hcontent _)).append (hopen state)
                · exact .inr (.inr fun state => (hmismatch _).append (hopen state))

/-! ## Text in pieces -/

/-- States that differ only in how the text since the last tag is cut into pieces. -/
structure SameText (state state' : Reading) : Prop where
  stack : state.stack = state'.stack
  roots : state.roots = state'.roots
  opened : state.opened = state'.opened
  text : state.text.reverse.flatten = state'.text.reverse.flatten

theorem SameText.refl (state : Reading) : SameText state state :=
  ⟨rfl, rfl, rfl, rfl⟩

theorem SameText.flush_eq {state state' : Reading} (h : SameText state state') :
    state.flush = state'.flush := by
  obtain ⟨stack, roots, text, opened⟩ := state
  obtain ⟨stack', roots', text', opened'⟩ := state'
  obtain ⟨hstack, hroots, hopened, htext⟩ := h
  dsimp only at hstack hroots hopened htext
  subst hstack hroots hopened
  cases stack with
  | nil => rfl
  | cons top outer => rw [flush_cons, flush_cons, htext]

theorem SameText.step_eq {state state' : Reading} (h : SameText state state') (name : Nat → String)
    {token : Token} (htoken : token.isText = false) : state.step name token = state'.step name token := by
  cases token with
  | text piece => simp [Token.isText] at htoken
  | opening tag attributes selfClosing => simp only [step, h.flush_eq]
  | closing tag offset => simp only [step, h.flush_eq]

theorem steps_letters (name : Nat → String) (state : Reading) (piece : List Char) :
    state.steps name (Token.letters piece) =
      .ok { state with text := (piece.map fun c => [c]).reverse ++ state.text } := by
  induction piece generalizing state with
  | nil => rfl
  | cons c piece ih =>
      have hrest := ih { state with text := [c] :: state.text }
      simpa [Token.letters, steps, step] using hrest

/-- How text is cut into pieces makes no difference. -/
theorem conclude_of_coarser {name : Nat → String} {coarse fine : List Token}
    (h : Token.Coarser coarse fine) {state state' : Reading} (hsame : SameText state state') :
    state.conclude name coarse = state'.conclude name fine := by
  induction h generalizing state state' with
  | nil =>
      obtain ⟨hstack, hroots, -, -⟩ := hsame
      simp only [conclude, steps, finish, hstack, hroots]
  | @same token coarse fine _ ih =>
      cases htoken : token.isText with
      | true =>
          cases token with
          | text piece =>
              have hnext : SameText { state with text := piece :: state.text }
                  { state' with text := piece :: state'.text } :=
                ⟨hsame.stack, hsame.roots, hsame.opened, by simp [hsame.text]⟩
              rw [conclude_cons rfl, conclude_cons rfl]
              exact ih hnext
          | opening | closing => simp [Token.isText] at htoken
      | false =>
          have hstep := hsame.step_eq name htoken
          cases hnext : state.step name token with
          | error e =>
              rw [conclude_cons_of_error hnext, conclude_cons_of_error (hstep ▸ hnext)]
          | ok next =>
              rw [conclude_cons hnext, conclude_cons (hstep ▸ hnext)]
              exact ih (.refl next)
  | @piece piece coarse fine _ _ ih =>
      have hletters : (piece.map fun c => [c]).flatten = piece := by
        rw [← List.flatMap_def, List.flatMap_singleton']
      have hnext : SameText { state with text := piece :: state.text }
          { state' with text := (piece.map fun c => [c]).reverse ++ state'.text } :=
        ⟨hsame.stack, hsame.roots, hsame.opened, by simp [hsame.text, hletters]⟩
      rw [conclude_cons rfl, conclude_append (steps_letters name state' piece)]
      exact ih hnext

end Reading

namespace Fragment

/-- Reading a text is concluding from its tokens. -/
theorem read_eq_conclude {name : Nat → String} {text : List Char} {tokens : List Token}
    (hcuts : Token.Cuts 0 text tokens) (hend : text.getLast? ≠ some '<') :
    read name text = Reading.start.conclude name tokens := by
  obtain ⟨coarse, hcut, hcoarser⟩ := Token.exists_cut_of_cuts hcuts hend
  rw [← Reading.conclude_of_coarser hcoarser (.refl _), read, hcut]
  unfold Reading.conclude
  cases Reading.start.steps name coarse <;> rfl

/-- A text that is read has tokens, and they are well nested around the root. -/
theorem exists_cuts_of_read {name : Nat → String} {text : List Char} {root : Node}
    (h : read name text = .ok root) :
    text.getLast? ≠ some '<' ∧ ∃ tokens, Token.Cuts 0 text tokens ∧
      Reading.start.conclude name tokens = .ok root := by
  have hfault : (Token.cut text).fault = none := by
    unfold read at h
    cases hsteps : Reading.start.steps name (Token.cut text).tokens with
    | error e => simp [hsteps] at h
    | ok last =>
        cases hfault : (Token.cut text).fault with
        | none => rfl
        | some e => simp [hsteps, hfault] at h
  obtain ⟨hend, tokens, hcuts, -⟩ := Token.exists_cuts_of_cut hfault
  exact ⟨hend, tokens, hcuts, by rw [← read_eq_conclude hcuts hend, h]⟩

end Fragment

namespace Reading

/-- Tokens are well nested, or reading them is a mismatch. -/
theorem wellNested_or_mismatch (name : Nat → String) (tokens : List Token) :
    (∃ roots, WellNested name tokens roots) ∨ Mismatch name start tokens := by
  rcases content_cases name tokens 0 with ⟨pieces, m, hcontent⟩ |
    ⟨inner, pieces, m, tag, offset, rest, rfl, hcontent⟩ | hmismatch
  · exact .inl ⟨_, pieces, m, hcontent, rfl⟩
  · right
    have hsteps := steps_of_content hcontent start
    obtain ⟨text, htext⟩ := exists_foldl_absorb [] [] 0 pieces
    have hstack : ((pieces.foldl absorb start).counted m).stack = [] := by
      rw [start, htext]
      rfl
    exact (mismatch_of_nothing_open hstack tag offset rest).append hsteps
  · exact .inr (hmismatch start)

/-- The root is concluded from exactly the tokens of a fragment with that root. -/
theorem conclude_eq_ok_iff {name : Nat → String} {tokens : List Token} {root : Node} :
    start.conclude name tokens = .ok root ↔ IsFragment name tokens root := by
  rw [isFragment_iff_wellNested]
  constructor
  · intro h
    rcases wellNested_or_mismatch name tokens with ⟨roots, hroots⟩ | ⟨e, he, -⟩
    · rw [conclude_of_wellNested hroots] at h
      match roots with
      | [] => cases h
      | [root'] =>
          cases h
          exact hroots
      | a :: b :: roots =>
          rw [finish_of_several] at h
          cases h
    · simp [he] at h
  · intro h
    rw [conclude_of_wellNested h]
    rfl

end Reading

/--
A text that is cut into tokens, and does not end in an angle bracket, is read as the tree of its
tokens when they are a fragment of the grammar.  Otherwise the fault is a mismatch when they are not
well nested, and tells a missing root from several when they are.
-/
theorem parse_correct {source : String} {tokens : List Token}
    (hcuts : Token.Cuts 0 source.toList tokens) (hend : source.toList.getLast? ≠ some '<') :
    (∀ root, Fragment.parse source = .ok root ↔ IsFragment Fragment.plainName tokens root) ∧
      ((¬∃ roots, WellNested Fragment.plainName tokens roots) →
        ∃ e, Fragment.parse source = .error e ∧ e.family = .mismatchedTag) ∧
      (WellNested Fragment.plainName tokens [] →
        ∃ e, Fragment.parse source = .error e ∧ e.family = .noRootFound) ∧
      ∀ a b roots, WellNested Fragment.plainName tokens (a :: b :: roots) →
        ∃ e, Fragment.parse source = .error e ∧ e.family = .multipleRoots := by
  have hparse : Fragment.parse source = Reading.start.conclude Fragment.plainName tokens :=
    Fragment.read_eq_conclude hcuts hend
  rw [hparse]
  refine ⟨fun root => Reading.conclude_eq_ok_iff, ?_, ?_, ?_⟩
  · intro hnot
    rcases Reading.wellNested_or_mismatch Fragment.plainName tokens with hnested | hmismatch
    · exact absurd hnested hnot
    · exact hmismatch
  · intro hnone
    rw [Reading.conclude_of_wellNested hnone]
    exact ⟨_, Reading.finish_of_no_root, rfl⟩
  · intro a b roots hseveral
    rw [Reading.conclude_of_wellNested hseveral, Reading.finish_of_several]
    exact ⟨_, rfl, rfl⟩

/-- An element with a text and another element in it. -/
theorem parse_correct_nested :
    Token.Cuts 0 "<a>x<b/></a>".toList
      [.opening "a" .empty false, .text ['x'], .opening "b" .empty true, .closing "a" 8] ∧
    ∀ root, Fragment.parse "<a>x<b/></a>" = .ok root ↔ IsFragment Fragment.plainName
      [.opening "a" .empty false, .text ['x'], .opening "b" .empty true, .closing "a" 8] root := by
  have ha : Token.OpeningTag ['a'] "a" .empty false :=
    .pair (by decide) (@Token.LeadingName.some 'a' [] [] rfl (by simp) (stops_nil _)) rfl
  have hb : Token.OpeningTag ['b', '/'] "b" .empty true :=
    @Token.OpeningTag.selfClosing _ ['b'] _ _ _ (by decide)
      (@Token.LeadingName.some 'b' [] [] rfl (by simp) (stops_nil _)) rfl
  have hclosing : Token.Cuts 8 "</a>".toList [.closing "a" 8] :=
    @Token.Cuts.closing 8 ['a', '>'] ['a'] [] [] rfl .nil
  have hinner : Token.Cuts 4 "<b/></a>".toList [.opening "b" .empty true, .closing "a" 8] :=
    .opening rfl (by decide) rfl hb hclosing
  have htext : Token.Cuts 3 "x<b/></a>".toList
      [.text ['x'], .opening "b" .empty true, .closing "a" 8] :=
    .character (by decide) (by decide) hinner
  have hcuts : Token.Cuts 0 "<a>x<b/></a>".toList
      [.opening "a" .empty false, .text ['x'], .opening "b" .empty true, .closing "a" 8] :=
    .opening rfl (by decide) rfl ha htext
  exact ⟨hcuts, (parse_correct hcuts (by decide)).1⟩

end ComponentBuilder.Markup
