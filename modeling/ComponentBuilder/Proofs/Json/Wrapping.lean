import ComponentBuilder.Json.Embedded
import ComponentBuilder.Proofs.Agent.Spacing
import ComponentBuilder.Proofs.Json.Nesting
import ComponentBuilder.Proofs.Text.Occurrence

/-!
# Objects inside fences and prose

The text of a plain object can be wrapped as models wrap it: the text holds no fence and stands between its own
braces, so the search for fences and braces cuts out exactly that text, which reads back as the object.
-/

namespace ComponentBuilder.Json

open Text (fence)

/-! ## Texts without a fence -/

/-- No fence is in a text, and none that comes later can begin in it. -/
structure Closed (text : List Char) : Prop where
  unfenced : Unfenced text
  last : text.getLast? ≠ some '\x60'

section Closed

variable {text rest : List Char}

theorem unfenced_of_not_mem (h : '\x60' ∉ text) : Unfenced text :=
  fun hfence => h (hfence.subset (by decide))

theorem closed_of_not_mem (h : '\x60' ∉ text) : Closed text :=
  ⟨unfenced_of_not_mem h, fun hlast => h (List.mem_of_getLast? hlast)⟩

theorem unfenced_append_cons {stop : Char} (hstop : stop ≠ '\x60') (htext : Unfenced text) (hrest : Unfenced rest) :
    Unfenced (text ++ stop :: rest) := by
  have hnot : stop ∉ fence := by simpa [fence] using hstop
  intro hfence
  exact (Text.infix_of_infix_append_cons hnot hfence).elim htext hrest

theorem Closed.unfenced_append (htext : Closed text) (hrest : Unfenced rest) : Unfenced (text ++ rest) := by
  rcases List.eq_nil_or_concat text with rfl | ⟨front, stop, rfl⟩
  · exact hrest
  · have hlast := htext.last
    rw [List.concat_eq_append, List.getLast?_concat, Ne, Option.some.injEq] at hlast
    have hfront : Unfenced front := fun hfence =>
      htext.unfenced (hfence.trans (List.concat_eq_append ▸ List.prefix_append front [stop]).isInfix)
    rw [List.concat_eq_append, List.append_assoc]
    exact unfenced_append_cons hlast hfront hrest

theorem Closed.append (htext : Closed text) (hrest : Closed rest) : Closed (text ++ rest) := by
  refine ⟨htext.unfenced_append hrest.unfenced, ?_⟩
  cases rest with
  | nil => simpa using htext.last
  | cons c rest =>
      rw [List.getLast?_append_of_ne_nil _ (List.cons_ne_nil c rest)]
      exact hrest.last

theorem closed_cons {c : Char} (hc : c ≠ '\x60') (h : Closed text) : Closed (c :: text) := by
  have hfirst : Closed [c] := closed_of_not_mem (by simpa using Ne.symm hc)
  exact hfirst.append h

end Closed

/-! ## Written values -/

theorem backquote_not_mem_escapeChar {c : Char} (h : c ≠ '\x60') : '\x60' ∉ escapeChar c := by
  have hhex : ∀ n < 16, '\x60' ≠ hexDigit n := by decide
  have hlow : c.toNat < 32 → '\x60' ∉ controlEscape c.toNat := by
    intro hcode
    have hfirst := hhex (c.toNat / 16) (by omega)
    have hsecond := hhex (c.toNat % 16) (by omega)
    simp [controlEscape, hfirst, hsecond]
  unfold escapeChar
  split_ifs with hquote hback hplain
  · decide
  · decide
  · simpa using Ne.symm h
  · decide
  · decide
  · decide
  · decide
  · decide
  · exact hlow (by omega)

/-- Backquotes stand for themselves in a quoted string. -/
theorem prefix_of_prefix_inside {n : Nat} {s : List Char} (h : List.replicate n '\x60' <+: inside s) :
    List.replicate n '\x60' <+: s := by
  induction s generalizing n with
  | nil => exact h
  | cons c s ih =>
      cases n with
      | zero => exact List.nil_prefix
      | succ n =>
          rw [List.replicate_succ] at h ⊢
          by_cases hc : c = '\x60'
          · subst hc
            rw [inside, List.flatMap_cons] at h
            exact List.cons_prefix_cons.2 ⟨rfl, ih (List.cons_prefix_cons.1 h).2⟩
          · obtain ⟨d, more, hescape⟩ := List.exists_cons_of_ne_nil (escapeChar_ne_nil c)
            have hnot := backquote_not_mem_escapeChar hc
            rw [inside, List.flatMap_cons, hescape] at h
            rw [hescape, ← (List.cons_prefix_cons.1 h).1] at hnot
            exact absurd List.mem_cons_self hnot

theorem unfenced_inside {s : List Char} (h : Unfenced s) : Unfenced (inside s) := by
  induction s with
  | nil => exact h
  | cons c s ih =>
      have hrest : Unfenced (inside s) := ih fun hfence => h (hfence.trans (List.suffix_cons c s).isInfix)
      by_cases hc : c = '\x60'
      · subst hc
        have hinside : inside ('\x60' :: s) = '\x60' :: inside s := rfl
        intro hfence
        rw [hinside, List.infix_cons_iff] at hfence
        rcases hfence with hbegins | hlater
        · have hrun : List.replicate 3 '\x60' <+: inside ('\x60' :: s) := hbegins
          exact h (prefix_of_prefix_inside hrun).isInfix
        · exact hrest hlater
      · rw [inside, List.flatMap_cons]
        exact (closed_of_not_mem (backquote_not_mem_escapeChar hc)).unfenced_append hrest

theorem closed_quote {s : List Char} (h : Unfenced s) : Closed (quote s) := by
  have hend : Unfenced (inside s ++ ['"']) :=
    unfenced_append_cons (by decide) (unfenced_inside h) (unfenced_of_not_mem List.not_mem_nil)
  refine closed_cons (by decide) ⟨hend, ?_⟩
  rw [List.getLast?_concat]
  decide

theorem backquote_not_mem_toString (n : Int) : '\x60' ∉ (toString n).toList := by
  rw [toList_toString, List.mem_append]
  rintro (hsign | hdigit)
  · split at hsign
    · exact absurd (List.mem_singleton.1 hsign) (by decide)
    · cases hsign
  · cases isDigit_of_mem_toDigits hdigit

theorem closed_lineBreak (layout : Layout) (level : Nat) : Closed (layout.lineBreak level) := by
  apply closed_of_not_mem
  cases layout with
  | compact => exact List.not_mem_nil
  | indented => simp [Layout.lineBreak]

theorem closed_colon (layout : Layout) : Closed layout.colon := by
  apply closed_of_not_mem
  cases layout <;> decide

mutual

theorem Plain.closed (layout : Layout) : ∀ {value : Json} (level : Nat), value.Plain →
    Closed (render layout level value)
  | .null, _, _ => closed_of_not_mem (by rw [render]; decide)
  | .bool true, _, _ => closed_of_not_mem (by rw [render]; decide)
  | .bool false, _, _ => closed_of_not_mem (by rw [render]; decide)
  | .int n, _, _ => closed_of_not_mem (by rw [render]; exact backquote_not_mem_toString n)
  | .double _, _, h => h.elim
  | .str _, _, h => closed_quote h
  | .torn, _, h => h.elim
  | .arr [], _, _ => closed_of_not_mem (by simp [render])
  | .arr (item :: items), level, h => by
      rw [render]
      exact closed_cons (by decide) (((((closed_lineBreak layout _).append (Plain.closed layout _ h.1)).append
        (PlainItems.closed layout _ h.2)).append (closed_lineBreak layout _)).append (closed_of_not_mem (by decide)))
  | .obj [], _, _ => closed_of_not_mem (by simp [render])
  | .obj ((name, value) :: fields), level, ⟨_, hname, hvalue, hfields⟩ => by
      rw [render]
      exact closed_cons (by decide) ((((((closed_lineBreak layout _).append (closed_quote hname)).append
        (closed_colon layout)).append (Plain.closed layout _ hvalue)).append
          (PlainFields.closed layout _ hfields)).append (closed_lineBreak layout _) |>.append
            (closed_of_not_mem (by decide)))

theorem PlainItems.closed (layout : Layout) : ∀ {items : List Json} (level : Nat), PlainItems items →
    Closed (renderItems layout level items)
  | [], _, _ => closed_of_not_mem List.not_mem_nil
  | item :: items, level, h => by
      rw [renderItems]
      exact closed_cons (by decide) (((closed_lineBreak layout _).append (Plain.closed layout _ h.1)).append
        (PlainItems.closed layout _ h.2))

theorem PlainFields.closed (layout : Layout) : ∀ {fields : List (String × Json)} (level : Nat), PlainFields fields →
    Closed (renderFields layout level fields)
  | [], _, _ => closed_of_not_mem List.not_mem_nil
  | (name, value) :: fields, level, ⟨hname, hvalue, hfields⟩ => by
      rw [renderFields]
      exact closed_cons (by decide) (((((closed_lineBreak layout _).append (closed_quote hname)).append
        (closed_colon layout)).append (Plain.closed layout _ hvalue)).append (PlainFields.closed layout _ hfields))

end

/-! ## Cutting out the text -/

section Cutting

variable {text : List Char}

/-- A text between braces of its own. -/
def InBraces (text : List Char) : Prop :=
  ∃ middle, text = '\x7b' :: (middle ++ ['\x7d'])

theorem inBraces_render (layout : Layout) (level : Nat) (fields : List (String × Json)) :
    InBraces (render layout level (.obj fields)) := by
  cases fields with
  | nil => exact ⟨[], by simp [render]⟩
  | cons field fields => exact ⟨_, by rw [render_obj_cons, ← List.append_assoc]⟩

theorem InBraces.solid (h : InBraces text) : Text.Solid text := by
  obtain ⟨middle, rfl⟩ := h
  refine ⟨⟨'\x7b', rfl, by decide⟩, ⟨'\x7d', ?_, by decide⟩⟩
  rw [← List.cons_append, List.getLast?_concat]

/-- What stands outside of the braces is left away. -/
theorem braced_append {front back : List Char} (hfront : '\x7b' ∉ front) (hback : '\x7d' ∉ back)
    (h : '\x7b' ∈ text) : braced (front ++ (text ++ back)) = braced text := by
  have hopen : ∀ c ∈ front, (c != '\x7b') = true := Text.bne_of_not_mem hfront
  have hclose : ∀ c ∈ back.reverse, (c != '\x7d') = true :=
    Text.bne_of_not_mem fun hmem => hback (List.mem_reverse.1 hmem)
  have hrest : text.dropWhile (· != '\x7b') ≠ [] := by
    intro hnone
    rw [List.dropWhile_eq_nil_iff] at hnone
    simpa using hnone '\x7b' h
  unfold braced
  rw [List.dropWhile_append_of_pos hopen, List.dropWhile_append, if_neg (by simpa using hrest), List.reverse_append,
    List.dropWhile_append_of_pos hclose]

theorem InBraces.braced_eq (h : InBraces text) : braced text = text := by
  obtain ⟨middle, rfl⟩ := h
  unfold braced
  rw [List.dropWhile_cons_of_neg (by decide), ← List.cons_append, List.reverse_append, List.reverse_singleton,
    List.singleton_append, List.dropWhile_cons_of_neg (by decide), List.reverse_cons, List.reverse_reverse]

/-- Blanks at the ends are not between the braces. -/
theorem braced_trim (h : '\x7b' ∈ text) : braced (Text.trim text) = braced text := by
  obtain ⟨before, after, htext, hbefore, hafter⟩ := Agent.exists_trim_eq text
  have hnone {blanks : List Char} (hblanks : ∀ c ∈ blanks, Text.isBlank c = true) {c : Char}
      (hc : Text.isBlank c = false) : c ∉ blanks := by
    intro hmem
    rw [hblanks c hmem] at hc
    cases hc
  have hopen : '\x7b' ∈ Text.trim text := by
    rw [htext, List.mem_append, List.mem_append] at h
    exact (h.resolve_left (hnone hbefore (by decide))).resolve_right (hnone hafter (by decide))
  conv_rhs => rw [htext]
  rw [braced_append (hnone hbefore (by decide)) (hnone hafter (by decide)) hopen]

end Cutting

/-! ## Fences -/

section Fences

variable {prose tag body : List Char}

/-- The backquotes that end a text, and what is in front of them. -/
theorem exists_trailing_backquotes (prose : List Char) : ∃ front count,
    prose = front ++ List.replicate count '\x60' ∧ ∀ c, front.getLast? = some c → c ≠ '\x60' := by
  induction prose using List.reverseRecOn with
  | nil => exact ⟨[], 0, rfl, by simp⟩
  | append_singleton prose c ih =>
      by_cases hc : c = '\x60'
      · obtain ⟨front, count, rfl, hlast⟩ := ih
        refine ⟨front, count + 1, ?_, hlast⟩
        rw [hc, List.append_assoc, ← List.replicate_succ']
      · refine ⟨prose ++ [c], 0, by simp, fun d hd => ?_⟩
        rw [List.getLast?_concat, Option.some.injEq] at hd
        exact hd ▸ hc

/-- The first fence after prose without one may begin with backquotes that end the prose. -/
theorem exists_find?_fence (h : Unfenced prose) (rest : List Char) : ∃ before count,
    Text.find? fence (prose ++ (fence ++ rest)) =
      some (before, List.replicate count '\x60' ++ (fence ++ rest)) := by
  obtain ⟨front, count, rfl, hlast⟩ := exists_trailing_backquotes prose
  have hcomm : List.replicate count '\x60' ++ fence = fence ++ List.replicate count '\x60' := by
    have hfence : fence = List.replicate 3 '\x60' := rfl
    rw [hfence, List.replicate_append_replicate, List.replicate_append_replicate, Nat.add_comm]
  have hbegins : fence <+: List.replicate count '\x60' ++ (fence ++ rest) := by
    rw [← List.append_assoc, hcomm, List.append_assoc]
    exact List.prefix_append _ _
  refine ⟨front, count, ?_⟩
  rw [List.append_assoc]
  rcases List.eq_nil_or_concat front with rfl | ⟨more, stop, rfl⟩
  · exact Text.find?_of_prefix (by decide) hbegins
  · rw [List.concat_eq_append, List.getLast?_concat] at hlast
    have hstop : stop ∉ fence := by simpa [fence] using hlast stop rfl
    have hmore : Unfenced more := fun hfence =>
      h (hfence.trans ⟨[], stop :: List.replicate count '\x60', by simp⟩)
    rw [List.concat_eq_append]
    exact Text.find?_append_of_stop (by decide) hstop hmore hbegins

/-- The lines inside a fence are the body, whatever the prose, the tag and the text after the fence are. -/
theorem fencedBody_fenced (hprose : Unfenced prose) (htag : '\n' ∉ tag) (hbody : Unfenced body) (after : List Char) :
    Text.fencedBody (prose ++ (fence ++ (tag ++ '\n' :: (body ++ '\n' :: (fence ++ after))))) =
      Text.trim (body ++ ['\n']) := by
  obtain ⟨before, count, hopen⟩ := exists_find?_fence hprose (tag ++ '\n' :: (body ++ '\n' :: (fence ++ after)))
  have hline : Text.find? ['\n'] (List.replicate count '\x60' ++ (fence ++ tag) ++
      (['\n'] ++ (body ++ '\n' :: (fence ++ after)))) =
        some (List.replicate count '\x60' ++ (fence ++ tag), ['\n'] ++ (body ++ '\n' :: (fence ++ after))) := by
    refine Text.Borderless.find?_append (by decide) (by decide) ?_ _
    rw [List.singleton_infix_iff]
    simp [htag, fence]
  have hclose : Text.find? fence (body ++ ['\n'] ++ (fence ++ after)) = some (body ++ ['\n'], fence ++ after) :=
    Text.find?_append_of_stop (by decide) (by decide) hbody (List.prefix_append fence after)
  have hassoc : List.replicate count '\x60' ++ (fence ++ (tag ++ '\n' :: (body ++ '\n' :: (fence ++ after)))) =
      List.replicate count '\x60' ++ (fence ++ tag) ++ (['\n'] ++ (body ++ '\n' :: (fence ++ after))) := by
    simp
  have hbodies : body ++ '\n' :: (fence ++ after) = body ++ ['\n'] ++ (fence ++ after) := by simp
  rw [Text.fencedBody, hopen]
  dsimp only
  rw [hassoc, hline]
  dsimp only [List.cons_append, List.nil_append, List.tail_cons]
  rw [hbodies, hclose]

end Fences

/-! ## Objects in wrapped texts -/

/-- What is cut out of a text is read as the object. -/
theorem embedded_of_braced {layout : Layout} {fields : List (String × Json)} (h : Plain (.obj fields))
    (repair : Bool) {text : String} (hcut : braced (Text.fencedBody text.toList) = render layout 0 (.obj fields)) :
    embedded repair text = .ok fields := by
  obtain ⟨middle, hbraces⟩ := inBraces_render layout 0 fields
  have hread : strict? (render layout 0 (.obj fields)) = some (.obj fields) := h.read?_wide layout
  unfold embedded
  dsimp only
  rw [hcut, hread, if_neg (by rw [hbraces]; simp)]

/-- A text in a fence, with any prose that holds no fence in front and any text behind. -/
def fenced (prose tag text after : String) : String :=
  prose ++ String.ofList fence ++ tag ++ "\n" ++ text ++ "\n" ++ String.ofList fence ++ after

/-- A text without backquotes and braces. -/
def Unmarked (text : String) : Prop :=
  '\x60' ∉ text.toList ∧ '\x7b' ∉ text.toList ∧ '\x7d' ∉ text.toList

/--
A plain object can be printed when its containers do not nest too deep, and is then taken back from its text in a
fence and in prose; else printing it fails.
-/
theorem embedded_wrapped (layout : Layout) (repair : Bool) (fields : List (String × Json)) (h : Plain (.obj fields)) :
    (nesting (.obj fields) ≤ printDepth → ∃ text, print layout (.obj fields) = .ok text ∧
      (∀ prose tag after : String, Unfenced prose.toList → '\n' ∉ tag.toList →
        embedded repair (fenced prose tag text after) = .ok fields) ∧
      (∀ before after : String, Unmarked before → Unmarked after →
        embedded repair (before ++ text ++ after) = .ok fields)) ∧
    (printDepth < nesting (.obj fields) → print layout (.obj fields) = .error .tooDeep) := by
  constructor
  · intro hdeep
    have hbraces := inBraces_render layout 0 fields
    have hclosed := h.closed layout 0
    refine ⟨String.ofList (render layout 0 (.obj fields)), h.print_eq layout hdeep, ?_, ?_⟩
    · intro prose tag after hprose htag
      apply embedded_of_braced h
      have htext : (fenced prose tag (String.ofList (render layout 0 (.obj fields))) after).toList =
          prose.toList ++ (fence ++ (tag.toList ++ '\n' :: (render layout 0 (.obj fields) ++
            '\n' :: (fence ++ after.toList)))) := by
        simp [fenced, String.toList_append]
      have htrim : Text.trim (render layout 0 (.obj fields) ++ ['\n']) = render layout 0 (.obj fields) :=
        hbraces.solid.trim_eq (fun _ hc => absurd hc List.not_mem_nil) (by decide)
      rw [htext, fencedBody_fenced hprose htag hclosed.unfenced, htrim, hbraces.braced_eq]
    · rintro before after ⟨hquote, hopen, -⟩ ⟨hquote', -, hclose⟩
      apply embedded_of_braced h
      have htext : (before ++ String.ofList (render layout 0 (.obj fields)) ++ after).toList =
          before.toList ++ (render layout 0 (.obj fields) ++ after.toList) := by
        simp [String.toList_append]
      have hwhole : Unfenced (before.toList ++ (render layout 0 (.obj fields) ++ after.toList)) :=
        (closed_of_not_mem hquote).unfenced_append (hclosed.unfenced_append (unfenced_of_not_mem hquote'))
      have hmem : '\x7b' ∈ render layout 0 (.obj fields) := by
        obtain ⟨middle, hmiddle⟩ := hbraces
        rw [hmiddle]
        exact List.mem_cons_self
      rw [htext, Text.fencedBody, Text.find?_eq_none hwhole]
      dsimp only
      rw [braced_trim (List.mem_append_right _ (List.mem_append_left _ hmem)), braced_append hopen hclose hmem,
        hbraces.braced_eq]
  · exact h.print_of_deep layout

/-- An object in a fence behind prose. -/
theorem embedded_fenced_name : Plain (.obj [("name", .str "Card")]) ∧
    ∃ text, print .indented (.obj [("name", .str "Card")]) = .ok text ∧
      embedded true (fenced "Here it is: " "json" text "") = .ok [("name", .str "Card")] := by
  have hplain : Plain (.obj [("name", .str "Card")]) :=
    ⟨by decide, unfenced_of_not_mem (by decide), unfenced_of_not_mem (by decide), trivial⟩
  obtain ⟨text, htext, hfenced, -⟩ := (embedded_wrapped .indented true _ hplain).1 (by decide)
  exact ⟨hplain, text, htext, hfenced _ _ _ (unfenced_of_not_mem (by decide)) (by decide)⟩

/-- Objects inside each other. -/
def nested : Nat → Json
  | 0 => .obj []
  | depth + 1 => .obj [("a", nested depth)]

theorem plain_nested : ∀ depth, (nested depth).Plain
  | 0 => ⟨List.nodup_nil, trivial⟩
  | depth + 1 => ⟨List.nodup_singleton _, unfenced_of_not_mem (by decide), plain_nested depth, trivial⟩

theorem nesting_nested (depth : Nat) : nesting (nested depth) = depth + 1 := by
  induction depth with
  | zero => rfl
  | succ depth ih => rw [nested, nesting, nestingFields, nestingFields, ih, Nat.max_zero]

/-- An object of 255 containers has no text in any layout. -/
theorem print_nested : (nested 254).Plain ∧ ∀ layout, print layout (nested 254) = .error .tooDeep := by
  refine ⟨plain_nested 254, fun layout => (plain_nested 254).print_of_deep layout ?_⟩
  rw [nesting_nested]
  decide

end ComponentBuilder.Json
