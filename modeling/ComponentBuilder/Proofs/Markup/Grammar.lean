import ComponentBuilder.Markup.Fragment
import ComponentBuilder.Proofs.Scan.Construct
import ComponentBuilder.Proofs.Text.Span

/-!
# The tokens of a text

A text is cut from left to right into tags, braced expressions and single characters.  `Cuts` tells
this cut without the order in which the cutter looks at things and without its runs of text; a text
that does not end in an angle bracket is cut by `Token.cut` without fault exactly when it has such
tokens, and the cutter's tokens differ from them only in the pieces of the text.
-/

namespace ComponentBuilder.Markup.Token

open Text Scan

/-! ## Opening tags -/

/-- The longest name in front of a text, empty when no name begins there, and the rest. -/
inductive LeadingName : List Char → List Char → List Char → Prop
  | none {text : List Char} (htext : Stops isNameStart text) : LeadingName text [] text
  | some {c : Char} {name rest : List Char} (hstart : isNameStart c = true)
      (hname : ∀ d ∈ name, isTagChar d = true) (hrest : Stops isTagChar rest) :
      LeadingName (c :: name ++ rest) (c :: name) rest

/-- What an opening tag says: its name, its attributes, and whether it closes itself. -/
inductive OpeningTag : List Char → String → Attributes → Bool → Prop
  | selfClosing {content body name rest : List Char} {attributes : Attributes}
      (hslash : trimEnd content = body ++ ['/']) (hname : LeadingName body name rest)
      (hattributes : AttributeList.read rest = .ok attributes) :
      OpeningTag content (String.ofList name) attributes true
  | pair {content name rest : List Char} {attributes : Attributes}
      (hslash : (trimEnd content).getLast? ≠ some '/') (hname : LeadingName content name rest)
      (hattributes : AttributeList.read rest = .ok attributes) :
      OpeningTag content (String.ofList name) attributes false

theorem tagName_eq_of_leadingName {text name rest : List Char} (hblank : Stops isBlank text)
    (h : LeadingName text name rest) : tagName text = (name, rest) := by
  unfold tagName
  rw [trimStart_of_stops hblank]
  cases h with
  | none htext =>
      cases text with
      | nil => rfl
      | cons c text => simp [stops_cons.1 htext]
  | @some c name rest hstart hname hrest =>
      have hspan : spanWhile isTagChar (name ++ rest) = (name, rest) :=
        spanWhile_eq_iff.2 ⟨rfl, hname, hrest⟩
      simp [hstart, hspan]

theorem leadingName_tagName {text : List Char} (hblank : Stops isBlank text) :
    LeadingName text (tagName text).1 (tagName text).2 := by
  unfold tagName
  rw [trimStart_of_stops hblank]
  cases text with
  | nil => exact .none (stops_nil _)
  | cons c text =>
      by_cases hstart : isNameStart c = true
      · cases hspan : spanWhile isTagChar text with
        | mk name rest =>
            obtain ⟨rfl, hname, hrest⟩ := spanWhile_eq_iff.1 hspan
            simpa [hstart, hspan] using LeadingName.some hstart hname hrest
      · simpa [hstart] using LeadingName.none (stops_cons.2 (by simpa using hstart))

/-- The part of a tag in front of its slash begins as the tag does. -/
theorem stops_of_trimEnd_eq {content body : List Char} (hblank : Stops isBlank content)
    (h : trimEnd content = body ++ ['/']) : Stops isBlank body := by
  obtain ⟨blanks, -, hcontent⟩ := exists_trimEnd_append_blanks content
  rw [hcontent, h] at hblank
  exact hblank.of_append.of_append

theorem ofOpening_of_openingTag {content : List Char} {tag : String} {attributes : Attributes}
    {selfClosing : Bool} (hblank : Stops isBlank content)
    (h : OpeningTag content tag attributes selfClosing) :
    ofOpening content = .ok (.opening tag attributes selfClosing) := by
  unfold ofOpening
  cases h with
  | selfClosing hslash hname hattributes =>
      have hbody := tagName_eq_of_leadingName (stops_of_trimEnd_eq hblank hslash) hname
      simp [hslash, hbody, hattributes]
  | pair hslash hname hattributes =>
      simp [hslash, tagName_eq_of_leadingName hblank hname, hattributes]

theorem openingTag_of_ofOpening {content : List Char} {token : Token}
    (hblank : Stops isBlank content) (h : ofOpening content = .ok token) :
    ∃ tag attributes selfClosing, OpeningTag content tag attributes selfClosing ∧
      token = .opening tag attributes selfClosing := by
  unfold ofOpening at h
  dsimp only at h
  by_cases hslash : (trimEnd content).getLast? = some '/'
  · simp only [hslash, beq_self_eq_true, if_true] at h
    have hsplit : trimEnd content = (trimEnd content).dropLast ++ ['/'] :=
      (List.dropLast_append_getLast? '/' hslash).symm
    have hname := leadingName_tagName (stops_of_trimEnd_eq hblank hsplit)
    cases hread : AttributeList.read (tagName (trimEnd content).dropLast).2 with
    | error e => simp [hread] at h
    | ok attributes =>
        simp only [hread, Except.ok.injEq] at h
        exact ⟨_, attributes, true, .selfClosing hsplit hname hread, h.symm⟩
  · have hpair : ((trimEnd content).getLast? == some '/') = false := by simpa using hslash
    simp only [hpair, Bool.false_eq_true, if_false] at h
    have hname := leadingName_tagName hblank
    cases hread : AttributeList.read (tagName content).2 with
    | error e => simp [hread] at h
    | ok attributes =>
        simp only [hread, Except.ok.injEq] at h
        exact ⟨_, attributes, false, .pair hslash hname hread, h.symm⟩

/-! ## The cut -/

/-- The tokens of a text that begins at an offset, text character by character. -/
inductive Cuts : Nat → List Char → List Token → Prop
  | nil {offset : Nat} : Cuts offset [] []
  | closing {offset : Nat} {rest content after : List Char} {tokens : List Token}
      (hend : Scan.tag (offset + 2) rest = .ok (content, after))
      (hafter : Cuts (offset + content.length + 3) after tokens) :
      Cuts offset ('<' :: '/' :: rest) (.closing (String.ofList (trim content)) offset :: tokens)
  | opening {offset : Nat} {rest content after : List Char} {tag : String} {attributes : Attributes}
      {selfClosing : Bool} {tokens : List Token} (hopens : opensTag rest = true)
      (hslash : rest.head? ≠ some '/') (hend : Scan.tag (offset + 1) rest = .ok (content, after))
      (htag : OpeningTag content tag attributes selfClosing)
      (hafter : Cuts (offset + content.length + 2) after tokens) :
      Cuts offset ('<' :: rest) (.opening tag attributes selfClosing :: tokens)
  | expression {offset : Nat} {rest source after : List Char} {tokens : List Token}
      (hend : Scan.expression offset ('\x7b' :: rest) = .ok (source, after))
      (hafter : Cuts (offset + source.length) after tokens) :
      Cuts offset ('\x7b' :: rest) (.text source :: tokens)
  | character {offset : Nat} {c : Char} {rest : List Char} {tokens : List Token} (hbrace : c ≠ '\x7b')
      (htag : c = '<' → opensTag rest = false) (hrest : Cuts (offset + 1) rest tokens) :
      Cuts offset (c :: rest) (.text [c] :: tokens)

/-- The text of a piece, character by character. -/
def letters (piece : List Char) : List Token :=
  piece.map fun c => .text [c]

/-- Tokens that become the others when some pieces of text are cut into characters. -/
inductive Coarser : List Token → List Token → Prop
  | nil : Coarser [] []
  | same {token : Token} {coarse fine : List Token} (h : Coarser coarse fine) :
      Coarser (token :: coarse) (token :: fine)
  | piece {piece : List Char} {coarse fine : List Token} (hpiece : piece ≠ [])
      (h : Coarser coarse fine) : Coarser (.text piece :: coarse) (letters piece ++ fine)

/-! ## The cutter -/

/-- A character that does not begin a tag or an expression. -/
def isPlain (c : Char) : Bool :=
  c != '<' && c != '\x7b'

/-- What opens a tag is a slash or opens an element. -/
theorem opensElement_eq {rest : List Char} (hrest : rest ≠ []) (hslash : rest.head? ≠ some '/') :
    opensElement rest = opensTag rest := by
  cases rest with
  | nil => exact absurd rfl hrest
  | cons c rest =>
      have hc : (c == '/') = false := by simpa using hslash
      simp only [opensElement, opensTag, hc, Bool.or_false]
      ac_rfl

/-- The inside of an opening tag does not begin with a blank. -/
theorem stops_of_opensTag {content after : List Char} (h : opensTag (content ++ '>' :: after) = true) :
    Stops isBlank content := by
  cases content with
  | nil => exact stops_nil _
  | cons c content =>
      rw [stops_cons]
      simp only [List.cons_append, opensTag, Bool.or_eq_true, beq_iff_eq] at h
      rcases h with (((h | rfl) | rfl) | rfl) | rfl
      · exact isBlank_eq_false_of_isLetter h
      all_goals decide

theorem exists_cuts_of_plain {offset : Nat} {c : Char} {rest : List Char} {tokens : List Token}
    (hc : isPlain c = true) (h : Cuts offset (c :: rest) tokens) :
    ∃ others, tokens = .text [c] :: others ∧ Cuts (offset + 1) rest others := by
  cases h with
  | closing | opening | expression => simp [isPlain] at hc
  | @character _ _ _ others _ _ hrest => exact ⟨others, rfl, hrest⟩

/-- A plain run and a text after it are cut one after the other. -/
theorem exists_cuts_of_run {run after : List Char} {offset : Nat} {tokens : List Token}
    (hrun : ∀ c ∈ run, isPlain c = true) (h : Cuts offset (run ++ after) tokens) :
    ∃ rest, tokens = letters run ++ rest ∧ Cuts (offset + run.length) after rest := by
  induction run generalizing offset tokens with
  | nil => exact ⟨tokens, rfl, h⟩
  | cons c run ih =>
      obtain ⟨others, rfl, hrest⟩ := exists_cuts_of_plain (hrun c (by simp)) h
      obtain ⟨rest, rfl, hafter⟩ := ih (fun d hd => hrun d (by simp [hd])) hrest
      refine ⟨rest, rfl, ?_⟩
      rwa [List.length_cons, ← Nat.add_assoc, Nat.add_right_comm]

theorem cuts_run {run after : List Char} {offset : Nat} {tokens : List Token}
    (hrun : ∀ c ∈ run, isPlain c = true) (h : Cuts (offset + run.length) after tokens) :
    Cuts offset (run ++ after) (letters run ++ tokens) := by
  induction run generalizing offset with
  | nil => exact h
  | cons c run ih =>
      have hc := hrun c (by simp)
      simp only [isPlain, Bool.and_eq_true, bne_iff_ne] at hc
      refine .character hc.2 (fun heq => absurd heq hc.1) (ih (fun d hd => hrun d (by simp [hd])) ?_)
      rwa [Nat.add_assoc, Nat.add_comm 1]

theorem cutFuel_eq (fuel : Nat) (seen : List Token) (offset : Nat) (text : List Char) :
    cutFuel fuel seen offset text =
      ⟨seen.reverse ++ (cutFuel fuel [] offset text).tokens, (cutFuel fuel [] offset text).fault⟩ := by
  induction fuel generalizing seen offset text with
  | zero => simp [cutFuel]
  | succ fuel ih =>
      cases text with
      | nil => simp [cutFuel]
      | cons c rest =>
          simp only [cutFuel]
          cases first offset c rest with
          | error e => simp
          | ok found =>
              obtain ⟨token, size, after⟩ := found
              dsimp only
              rw [ih (token :: seen), ih [token]]
              simp

/-- A text that goes on after its front ends as what comes after ends. -/
theorem getLast?_ne_of_append {front after : List Char} {c : Char}
    (h : (front ++ after).getLast? ≠ some c) : after.getLast? ≠ some c := by
  intro hafter
  rw [List.getLast?_append, hafter] at h
  exact h rfl

/-- The token in front is the first of the text's tokens, or a run of its characters. -/
theorem exists_first_of_cuts {offset : Nat} {c : Char} {rest : List Char} {tokens : List Token}
    (h : Cuts offset (c :: rest) tokens) (hend : (c :: rest).getLast? ≠ some '<') :
    ∃ token size front after fine others, first offset c rest = .ok (token, size, after) ∧
      c :: rest = front ++ after ∧ front ≠ [] ∧ tokens = fine ++ others ∧
      Cuts (offset + size) after others ∧
      ∀ coarse, Coarser coarse others → Coarser (token :: coarse) tokens := by
  cases h with
  | @closing _ rest content after others hscan hafter =>
      obtain ⟨-, rfl⟩ := tag_eq_ok_iff.1 hscan
      refine ⟨_, content.length + 3, '<' :: '/' :: (content ++ ['>']), after, [_], others, ?_, by simp,
        by simp, rfl, hafter, fun coarse hcoarse => .same hcoarse⟩
      simp [first, hscan]
  | @opening _ _ content after tag attributes selfClosing others hopens hslash hscan htag hafter =>
      obtain ⟨-, rfl⟩ := tag_eq_ok_iff.1 hscan
      refine ⟨_, content.length + 2, '<' :: (content ++ ['>']), after, [_], others, ?_, by simp,
        by simp, rfl, hafter, fun coarse hcoarse => .same hcoarse⟩
      have helement : opensElement (content ++ '>' :: after) = true := by
        rw [opensElement_eq (by simp) hslash, hopens]
      have hnoSlash : ((content ++ '>' :: after).head? == some '/') = false := by simpa using hslash
      simp only [first, beq_self_eq_true, Bool.true_and, hnoSlash, helement, hscan,
        ofOpening_of_openingTag (stops_of_opensTag hopens) htag]
      rfl
  | @expression _ rest source after others hscan hafter =>
      obtain ⟨hsource, hsplit⟩ := expression_eq_ok_iff.1 hscan
      obtain ⟨inside, hcons⟩ := hsource.eq_cons
      refine ⟨_, source.length, source, after, [_], others, ?_, hsplit, by simp [hcons], rfl, hafter,
        fun coarse hcoarse => .same hcoarse⟩
      simp [first, hscan]
  | @character _ _ _ others hbrace htag hrest =>
      cases hspan : spanWhile (fun d => d != '<' && d != '\x7b') rest with
      | mk run after =>
          obtain ⟨rfl, hrun, -⟩ := spanWhile_eq_iff.1 hspan
          obtain ⟨others', rfl, hafter⟩ := exists_cuts_of_run hrun hrest
          refine ⟨.text (c :: run), run.length + 1, c :: run, after, letters (c :: run), others', ?_, rfl,
            by simp, rfl, ?_, fun coarse hcoarse => .piece (by simp) hcoarse⟩
          · have hnoTag : c = '<' → (run ++ after).head? ≠ some '/' ∧ opensElement (run ++ after) = false := by
              rintro rfl
              have hopens := htag rfl
              have hne : run ++ after ≠ [] := by
                intro hnil
                rw [hnil] at hend
                exact hend rfl
              have hslash : (run ++ after).head? ≠ some '/' := by
                intro hhead
                obtain ⟨d, more, hmore⟩ := List.exists_cons_of_ne_nil hne
                rw [hmore] at hhead hopens
                simp only [List.head?_cons, Option.some.injEq] at hhead
                subst hhead
                simp [opensTag] at hopens
              exact ⟨hslash, by rw [opensElement_eq hne hslash, hopens]⟩
            have hb : (c == '\x7b') = false := by simpa using hbrace
            by_cases hc : c = '<'
            · obtain ⟨hslash, helement⟩ := hnoTag hc
              have hs : ((run ++ after).head? == some '/') = false := by simpa using hslash
              simp only [first, hs, helement, hb, hspan, Bool.and_false, Bool.false_eq_true, if_false]
            · have hne : (c == '<') = false := by simpa using hc
              simp [first, hne, hb, hspan]
          · rwa [Nat.add_assoc, Nat.add_comm 1] at hafter

/-- A text with tokens that does not end in an angle bracket is cut without fault. -/
theorem exists_cutFuel_of_cuts {fuel offset : Nat} {text : List Char} {tokens : List Token}
    (h : Cuts offset text tokens) (hend : text.getLast? ≠ some '<') (hfuel : text.length < fuel) :
    ∃ coarse, cutFuel fuel [] offset text = ⟨coarse, none⟩ ∧ Coarser coarse tokens := by
  induction fuel generalizing offset text tokens with
  | zero => omega
  | succ fuel ih =>
      cases text with
      | nil =>
          cases h
          exact ⟨[], rfl, .nil⟩
      | cons c rest =>
          obtain ⟨token, size, front, after, fine, others, hfirst, htext, hfront, rfl, hafter, hcoarser⟩ :=
            exists_first_of_cuts h hend
          have hlength : after.length < (c :: rest).length := by
            have := List.length_pos_iff.2 hfront
            rw [htext, List.length_append]
            omega
          rw [htext] at hend
          obtain ⟨coarse, hcut, hcoarse⟩ := ih hafter (getLast?_ne_of_append hend) (by omega)
          refine ⟨token :: coarse, ?_, hcoarser coarse hcoarse⟩
          simp only [cutFuel, hfirst]
          rw [cutFuel_eq, hcut]
          rfl

theorem exists_cut_of_cuts {text : List Char} {tokens : List Token} (h : Cuts 0 text tokens)
    (hend : text.getLast? ≠ some '<') :
    ∃ coarse, cut text = ⟨coarse, none⟩ ∧ Coarser coarse tokens :=
  exists_cutFuel_of_cuts h hend (Nat.lt_succ_self _)

/-- The token in front can be put before the tokens of the text after it. -/
theorem exists_cuts_of_first {offset size : Nat} {c : Char} {rest after : List Char} {token : Token}
    (h : first offset c rest = .ok (token, size, after)) :
    ∃ front fine, c :: rest = front ++ after ∧ front ≠ [] ∧
      (after = [] → front.getLast? ≠ some '<') ∧ ∀ others, Cuts (offset + size) after others →
        Cuts offset (c :: rest) (fine ++ others) ∧
          ∀ coarse, Coarser coarse others → Coarser (token :: coarse) (fine ++ others) := by
  unfold first at h
  split_ifs at h with hclosing helement hbrace
  · rw [Bool.and_eq_true, beq_iff_eq, beq_iff_eq] at hclosing
    obtain ⟨rfl, hslash⟩ := hclosing
    obtain ⟨rest, rfl⟩ : ∃ more, rest = '/' :: more := by
      cases rest with
      | nil => simp at hslash
      | cons d more => exact ⟨more, by simpa using hslash⟩
    cases hscan : Scan.tag (offset + 2) rest with
    | error e => simp [hscan] at h
    | ok found =>
        obtain ⟨content, after'⟩ := found
        simp only [List.tail_cons, hscan, Except.ok.injEq, Prod.mk.injEq] at h
        obtain ⟨rfl, rfl, rfl⟩ := h
        obtain ⟨-, rfl⟩ := tag_eq_ok_iff.1 hscan
        have hlast : ('<' :: '/' :: (content ++ ['>'])).getLast? = some '>' := by
          simp [List.getLast?_cons]
        exact ⟨'<' :: '/' :: (content ++ ['>']), [_], by simp, by simp, by simp [hlast],
          fun others hothers => ⟨.closing hscan hothers, fun coarse hcoarse => .same hcoarse⟩⟩
  · rw [Bool.and_eq_true, beq_iff_eq] at helement
    obtain ⟨rfl, helement⟩ := helement
    have hslash : rest.head? ≠ some '/' := by simpa using hclosing
    cases hscan : Scan.tag (offset + 1) rest with
    | error e => simp [hscan] at h
    | ok found =>
        obtain ⟨content, after'⟩ := found
        obtain ⟨-, rfl⟩ := tag_eq_ok_iff.1 hscan
        simp only [hscan] at h
        rw [opensElement_eq (by simp) hslash] at helement
        cases htoken : ofOpening content with
        | error e => simp [htoken] at h
        | ok opening =>
            simp only [htoken, Except.ok.injEq, Prod.mk.injEq] at h
            obtain ⟨rfl, rfl, rfl⟩ := h
            obtain ⟨tag, attributes, selfClosing, htag, rfl⟩ :=
              openingTag_of_ofOpening (stops_of_opensTag helement) htoken
            have hlast : ('<' :: (content ++ ['>'])).getLast? = some '>' := by
              simp [List.getLast?_cons]
            exact ⟨'<' :: (content ++ ['>']), [_], by simp, by simp, by simp [hlast],
              fun others hothers => ⟨.opening helement hslash hscan htag hothers,
                fun coarse hcoarse => .same hcoarse⟩⟩
  · have hc : c = '\x7b' := by simpa using hbrace
    subst hc
    cases hscan : Scan.expression offset ('\x7b' :: rest) with
    | error e => simp [hscan] at h
    | ok found =>
        obtain ⟨source, after'⟩ := found
        simp only [hscan, Except.ok.injEq, Prod.mk.injEq] at h
        obtain ⟨rfl, rfl, rfl⟩ := h
        obtain ⟨hsource, hsplit⟩ := expression_eq_ok_iff.1 hscan
        obtain ⟨inside, hcons⟩ := hsource.eq_cons
        exact ⟨source, [_], hsplit, by simp [hcons], by simp [hsource.getLast?_eq],
          fun others hothers => ⟨.expression hscan hothers, fun coarse hcoarse => .same hcoarse⟩⟩
  · cases hspan : spanWhile (fun d => d != '<' && d != '\x7b') rest with
    | mk run after' =>
        obtain ⟨rfl, hrun, -⟩ := spanWhile_eq_iff.1 hspan
        simp only [hspan, Except.ok.injEq, Prod.mk.injEq] at h
        obtain ⟨rfl, rfl, rfl⟩ := h
        have hnoTag : c = '<' → run ++ after' ≠ [] ∧ opensTag (run ++ after') = false := by
          rintro rfl
          have hne : run ++ after' ≠ [] := by
            intro hnil
            simp [hnil, opensElement] at helement
          have hslash : (run ++ after').head? ≠ some '/' := by simpa using hclosing
          refine ⟨hne, ?_⟩
          rw [← opensElement_eq hne hslash]
          simpa using helement
        refine ⟨c :: run, letters (c :: run), rfl, by simp, ?_, fun others hothers => ⟨?_, ?_⟩⟩
        · rintro rfl hlast
          cases run with
          | nil => exact (hnoTag (by simpa using hlast)).1 rfl
          | cons d run =>
              rw [List.getLast?_cons_cons] at hlast
              have hmem := hrun _ (List.mem_of_getLast? hlast)
              simp at hmem
        · refine .character (by simpa using hbrace) (fun hc => (hnoTag hc).2) (cuts_run hrun ?_)
          rwa [Nat.add_assoc, Nat.add_comm 1]
        · exact fun coarse hcoarse => .piece (by simp) hcoarse

/-- A text that is cut without fault has tokens, and does not end in an angle bracket. -/
theorem exists_cuts_of_cutFuel {fuel offset : Nat} {text : List Char} {coarse : List Token}
    (hfuel : text.length < fuel) (h : cutFuel fuel [] offset text = ⟨coarse, none⟩) :
    text.getLast? ≠ some '<' ∧ ∃ tokens, Cuts offset text tokens ∧ Coarser coarse tokens := by
  induction fuel generalizing offset text coarse with
  | zero => omega
  | succ fuel ih =>
      cases text with
      | nil =>
          simp only [cutFuel, List.reverse_nil, TokenCut.mk.injEq, and_true] at h
          subst h
          exact ⟨by simp, [], .nil, .nil⟩
      | cons c rest =>
          simp only [cutFuel] at h
          cases hfirst : first offset c rest with
          | error e => simp [hfirst] at h
          | ok found =>
              obtain ⟨token, size, after⟩ := found
              obtain ⟨front, fine, htext, hfront, hlast, hcuts⟩ := exists_cuts_of_first hfirst
              have hlength : after.length < (c :: rest).length := by
                have := List.length_pos_iff.2 hfront
                rw [htext, List.length_append]
                omega
              simp only [hfirst] at h
              rw [cutFuel_eq, TokenCut.mk.injEq] at h
              obtain ⟨rfl, hfault⟩ := h
              have hcut : cutFuel fuel [] (offset + size) after =
                  ⟨(cutFuel fuel [] (offset + size) after).tokens, none⟩ := by
                rw [← hfault]
              obtain ⟨hend, others, hothers, hcoarser⟩ := ih (by omega) hcut
              refine ⟨?_, fine ++ others, (hcuts others hothers).1, (hcuts others hothers).2 _ hcoarser⟩
              rw [htext, List.getLast?_append]
              cases hafter : after.getLast? with
              | none => simpa using hlast (by simpa using hafter)
              | some d => simpa [hafter] using hend

/-- A text is cut without fault exactly when it has tokens and does not end in an angle bracket. -/
theorem exists_cuts_of_cut {text : List Char} (h : (cut text).fault = none) :
    text.getLast? ≠ some '<' ∧ ∃ tokens, Cuts 0 text tokens ∧ Coarser (cut text).tokens tokens := by
  refine exists_cuts_of_cutFuel (Nat.lt_succ_self text.length) ?_
  rw [← h]
  rfl

end ComponentBuilder.Markup.Token
