import ComponentBuilder.Agent.ModelCache
import ComponentBuilder.Proofs.Number.Shortest
import ComponentBuilder.Proofs.Text.Span

/-!
# Reuse of loaded models

A model is kept under a text that tells the name, the answer format and the temperature of a configuration and
nothing else.  So a load is answered with the model that was first loaded with these three since the models were
last dropped, whatever the other parameters of the two configurations are.
-/

namespace ComponentBuilder

/-- Whether two doubles are one value, or equal as numbers. -/
def Double.Equal (x y : Double) : Prop :=
  x = y ∨ x.le y = true ∧ y.le x = true

namespace Agent

/-! ## Keys of configurations -/

namespace ModelConfig

/-- Whether two configurations are equal, field by field. -/
structure Equal (c d : ModelConfig) : Prop where
  modelName : c.modelName = d.modelName
  apiKey : c.apiKey = d.apiKey
  temperature : c.temperature.Equal d.temperature
  maxTokens : c.maxTokens = d.maxTokens
  topP : c.topP.Equal d.topP
  topK : c.topK = d.topK
  jsonMode : c.jsonMode = d.jsonMode

theorem Equal.refl (c : ModelConfig) : c.Equal c :=
  ⟨rfl, rfl, .inl rfl, rfl, .inl rfl, rfl, rfl⟩

/-- Whether two configurations have the same name, answer format and temperature. -/
structure Alike (c d : ModelConfig) : Prop where
  modelName : c.modelName = d.modelName
  jsonMode : c.jsonMode = d.jsonMode
  temperature : c.temperature = d.temperature ∨ c.temperature.isNaN = true ∧ d.temperature.isNaN = true

end ModelConfig

namespace ModelCache

theorem eq_of_append_colon {front front' back back' : List Char} (hback : ':' ∉ back) (hback' : ':' ∉ back')
    (h : front ++ ':' :: back = front' ++ ':' :: back') : front = front' ∧ back = back' := by
  rcases Text.append_cons_eq_append_cons h with ⟨hfront, -, hsame⟩ | ⟨more, rfl⟩ | ⟨more, rfl⟩
  · exact ⟨hfront, hsame⟩
  · rw [List.append_assoc, List.append_cancel_left_eq] at h
    exact absurd (by rw [← (List.cons.inj h).2]; simp) hback'
  · rw [List.append_assoc, List.append_cancel_left_eq] at h
    exact absurd (by rw [(List.cons.inj h).2]; simp) hback

theorem toList_key (c : ModelConfig) : (key c).toList =
    (c.modelName.toList ++ ':' :: (if c.jsonMode then "True" else "False").toList) ++
      ':' :: c.temperature.displayText.toList := by
  simp [key, String.toList_append]

/-- Configurations have one key exactly when they have the same name, answer format and temperature. -/
theorem key_eq_iff {c d : ModelConfig} : key c = key d ↔ c.Alike d := by
  constructor
  · intro h
    have hmode (mode : Bool) : ':' ∉ (if mode then "True" else "False").toList := by cases mode <;> decide
    rw [← String.toList_inj, toList_key, toList_key] at h
    obtain ⟨hfront, htemperature⟩ := eq_of_append_colon (Double.colon_not_mem_displayText _)
      (Double.colon_not_mem_displayText _) h
    obtain ⟨hname, hmode⟩ := eq_of_append_colon (hmode _) (hmode _) hfront
    refine ⟨String.toList_inj.1 hname, ?_, Double.displayText_eq_iff.1 (String.toList_inj.1 htemperature)⟩
    revert hmode
    cases c.jsonMode <;> cases d.jsonMode <;> decide
  · rintro ⟨hname, hmode, htemperature⟩
    rw [key, key, hname, hmode, Double.displayText_eq_iff.2 htemperature]

/-! ## What a call does -/

section Calls

variable {cache : ModelCache} {c d : ModelConfig} {refused : Bool} {model : LoadedModel}

/-- A load takes the model that is kept, or is refused, or keeps a new model. -/
theorem load_cases (cache : ModelCache) (c : ModelConfig) (refused : Bool) :
    (∃ model, cache.models.get? (key c) = some model ∧ cache.load c refused = ⟨some model, cache, []⟩) ∨
      cache.models.get? (key c) = none ∧
        (refused = true ∧ cache.load c refused = ⟨none, cache, [.configure c.apiKey]⟩ ∨
          refused = false ∧ cache.load c refused =
            ⟨some ⟨cache.loads, c⟩, ⟨cache.models.set (key c) ⟨cache.loads, c⟩, cache.loads + 1⟩,
              [.configure c.apiKey, .model c]⟩) := by
  unfold load
  cases hkept : cache.models.get? (key c) with
  | some model => exact .inl ⟨model, rfl, rfl⟩
  | none =>
      cases refused with
      | true => exact .inr ⟨rfl, .inl ⟨rfl, rfl⟩⟩
      | false => exact .inr ⟨rfl, .inr ⟨rfl, rfl⟩⟩

/-- A model that a load gives is kept under its key from then on. -/
theorem get?_load (h : (cache.load c refused).model = some model) :
    (cache.load c refused).cache.models.get? (key c) = some model := by
  rcases cache.load_cases c refused with ⟨kept, hkept, hload⟩ | ⟨-, ⟨-, hload⟩ | ⟨-, hload⟩⟩ <;> rw [hload] at h ⊢
  · exact hkept.trans h
  · cases h
  · rw [Keyed.get?_set, if_pos rfl]
    exact h

/-- A load that gives no model is one that is refused, with nothing kept under its key. -/
theorem load_eq_none_iff : (cache.load c refused).model = none ↔
    refused = true ∧ cache.models.get? (key c) = none := by
  rcases cache.load_cases c refused with ⟨kept, hkept, hload⟩ | ⟨hnone, ⟨hrefused, hload⟩ | ⟨hrefused, hload⟩⟩ <;>
    simp_all

/-- A load that gives no model changes nothing. -/
theorem cache_load_of_none (h : (cache.load c refused).model = none) : (cache.load c refused).cache = cache := by
  rcases cache.load_cases c refused with ⟨kept, hkept, hload⟩ | ⟨-, ⟨-, hload⟩ | ⟨-, hload⟩⟩
  · rw [hload]
  · rw [hload]
  · rw [hload] at h
    cases h

/-- A call other than a drop takes no model away. -/
theorem get?_perform {call : Call} (hcall : call ≠ .unload) {name : String}
    (h : cache.models.get? name = some model) : (cache.perform call).models.get? name = some model := by
  cases call with
  | unload => exact absurd rfl hcall
  | load c refused =>
      rw [perform]
      rcases cache.load_cases c refused with ⟨kept, -, hload⟩ | ⟨hnone, ⟨-, hload⟩ | ⟨-, hload⟩⟩ <;> rw [hload]
      · exact h
      · exact h
      · have hother : name ≠ key c := by
          rintro rfl
          rw [hnone] at h
          cases h
        rw [Keyed.get?_set, if_neg hother]
        exact h

/-- Models are kept under the keys of their configurations, and no two have one number. -/
structure Coherent (cache : ModelCache) : Prop where
  key_eq : ∀ name model, cache.models.get? name = some model → name = key model.config
  number_lt : ∀ name model, cache.models.get? name = some model → model.number < cache.loads
  apart : ∀ name name' model model', cache.models.get? name = some model →
    cache.models.get? name' = some model' → model.number = model'.number → name = name'

theorem coherent_empty (loads : Nat) : Coherent ⟨.empty, loads⟩ where
  key_eq _ _ h := by cases h
  number_lt _ _ h := by cases h
  apart _ _ _ _ h := by cases h

theorem Coherent.set (h : cache.Coherent) (c : ModelConfig) :
    Coherent ⟨cache.models.set (key c) ⟨cache.loads, c⟩, cache.loads + 1⟩ := by
  have hentry {name : String} {model : LoadedModel}
      (hmodel : (cache.models.set (key c) ⟨cache.loads, c⟩).get? name = some model) :
      name = key c ∧ model = ⟨cache.loads, c⟩ ∨ cache.models.get? name = some model := by
    rw [Keyed.get?_set] at hmodel
    split at hmodel
    · next hname => exact .inl ⟨hname, (Option.some.inj hmodel).symm⟩
    · exact .inr hmodel
  refine ⟨fun name model hmodel => ?_, fun name model hmodel => ?_, ?_⟩
  · rcases hentry hmodel with ⟨rfl, rfl⟩ | hold
    · rfl
    · exact h.key_eq _ _ hold
  · rcases hentry hmodel with ⟨rfl, rfl⟩ | hold
    · exact Nat.lt_succ_self _
    · exact Nat.lt_succ_of_lt (h.number_lt _ _ hold)
  · intro name name' model model' hmodel hmodel' hnumber
    rcases hentry hmodel with ⟨rfl, rfl⟩ | hold <;> rcases hentry hmodel' with ⟨rfl, rfl⟩ | hold'
    · rfl
    · exact absurd hnumber.symm (Nat.ne_of_lt (h.number_lt _ _ hold'))
    · exact absurd hnumber (Nat.ne_of_lt (h.number_lt _ _ hold))
    · exact h.apart _ _ _ _ hold hold' hnumber

theorem Coherent.perform (h : cache.Coherent) (call : Call) : (cache.perform call).Coherent := by
  cases call with
  | unload => exact coherent_empty _
  | load c refused =>
      rw [ModelCache.perform]
      rcases cache.load_cases c refused with ⟨kept, -, hload⟩ | ⟨-, ⟨-, hload⟩ | ⟨-, hload⟩⟩ <;> rw [hload]
      · exact h
      · exact h
      · exact h.set c

end Calls

/-! ## Runs of calls -/

section Runs

variable {cache : ModelCache} {calls earlier between : List Call} {c d : ModelConfig} {model model' : LoadedModel}

theorem after_append (cache : ModelCache) (earlier later : List Call) :
    cache.after (earlier ++ later) = (cache.after earlier).after later :=
  List.foldl_append

theorem after_concat (cache : ModelCache) (calls : List Call) (call : Call) :
    cache.after (calls ++ [call]) = (cache.after calls).perform call :=
  after_append cache calls [call]

theorem coherent_after (calls : List Call) : (after {} calls).Coherent := by
  induction calls using List.reverseRecOn with
  | nil => exact coherent_empty 0
  | append_singleton calls call ih =>
      rw [after_concat]
      exact ih.perform call

theorem get?_after (hcalls : .unload ∉ calls) {name : String} (h : cache.models.get? name = some model) :
    (cache.after calls).models.get? name = some model := by
  induction calls generalizing cache with
  | nil => exact h
  | cons call calls ih =>
      rw [List.mem_cons, not_or] at hcalls
      exact ih hcalls.2 (get?_perform (Ne.symm hcalls.1) h)

/-- The calls end with a load that gives the model. -/
def Gives (calls : List Call) (c : ModelConfig) (model : LoadedModel) : Prop :=
  ∃ earlier refused, calls = earlier ++ [.load c refused] ∧ ((after {} earlier).load c refused).model = some model

theorem Gives.get? (h : Gives calls c model) : (after {} calls).models.get? (key c) = some model := by
  obtain ⟨earlier, refused, rfl, hmodel⟩ := h
  rw [after_concat]
  exact get?_load hmodel

/-- A model that is kept was given by an early load of its own configuration, after the last drop. -/
theorem exists_gives {name : String} (h : (after {} calls).models.get? name = some model) :
    ∃ earlier between, calls = earlier ++ between ∧ .unload ∉ between ∧ Gives earlier model.config model := by
  induction calls using List.reverseRecOn with
  | nil => cases h
  | append_singleton calls call ih =>
      rw [after_concat] at h
      cases call with
      | unload => cases h
      | load c refused =>
          rw [perform] at h
          by_cases hkept : (after {} calls).models.get? name = some model
          · obtain ⟨earlier, between, rfl, hbetween, hgives⟩ := ih hkept
            exact ⟨earlier, between ++ [.load c refused], by rw [List.append_assoc], by simp [hbetween], hgives⟩
          · rcases (after {} calls).load_cases c refused with ⟨kept, -, hload⟩ | ⟨-, ⟨-, hload⟩ | ⟨-, hload⟩⟩ <;>
              rw [hload] at h
            · exact absurd h hkept
            · exact absurd h hkept
            · rw [Keyed.get?_set] at h
              split at h
              · obtain rfl := Option.some.inj h
                exact ⟨calls ++ [.load c refused], [], by rw [List.append_nil], List.not_mem_nil,
                  calls, refused, rfl, by rw [hload]⟩
              · exact absurd h hkept

/-- Two loads with no drop between them give one model exactly when their configurations are alike. -/
theorem number_eq_iff (h : Gives earlier c model) (hbetween : .unload ∉ between)
    (h' : Gives (earlier ++ between) d model') : model.number = model'.number ↔ c.Alike d := by
  have hkept : (after {} (earlier ++ between)).models.get? (key c) = some model := by
    rw [after_append]
    exact get?_after hbetween h.get?
  constructor
  · intro hnumber
    exact key_eq_iff.1 ((coherent_after _).apart _ _ _ _ hkept h'.get? hnumber)
  · intro halike
    have hsame := h'.get?
    rw [← key_eq_iff.2 halike, hkept] at hsame
    rw [Option.some.inj hsame]

/-- A load gives no model exactly when it is refused and no model was given for an alike one since the last drop. -/
theorem model_eq_none_iff {refused : Bool} : ((after {} calls).load c refused).model = none ↔
    refused = true ∧ ∀ first between d model, calls = first ++ between → .unload ∉ between → Gives first d model →
      ¬d.Alike c := by
  rw [load_eq_none_iff, and_congr_right_iff]
  intro _
  constructor
  · rintro hnone first between d model rfl hbetween hgives halike
    have hkept := get?_after hbetween hgives.get?
    rw [← after_append, key_eq_iff.2 halike, hnone] at hkept
    cases hkept
  · intro hnever
    cases hkept : (after {} calls).models.get? (key c) with
    | none => rfl
    | some model =>
        obtain ⟨first, between, hcalls, hbetween, hgives⟩ := exists_gives hkept
        have hkey := (coherent_after calls).key_eq _ _ hkept
        exact absurd (key_eq_iff.1 hkey.symm) (hnever first between _ model hcalls hbetween hgives)

/-- Two loads among the calls give the models, and no drop stands between them. -/
def Reloads (calls : List Call) (c d : ModelConfig) (model model' : LoadedModel) : Prop :=
  ∃ earlier between, earlier ++ between <+: calls ∧ .unload ∉ between ∧ Gives earlier c model ∧
    Gives (earlier ++ between) d model'

/-- A model is given for its own configuration only, and one model is given again for an equal one. -/
structure ReusedExactly (calls : List Call) : Prop where
  config : ∀ earlier c model, earlier <+: calls → Gives earlier c model → model.config.Equal c
  object : ∀ c d model model', Reloads calls c d model model' → (model.number = model'.number ↔ c.Equal d)

theorem Reloads.number_eq_iff (h : Reloads calls c d model model') : model.number = model'.number ↔ c.Alike d := by
  obtain ⟨earlier, between, -, hbetween, hfirst, hsecond⟩ := h
  exact ModelCache.number_eq_iff hfirst hbetween hsecond

/-- What a load gives was given first to a load of its own configuration, with no drop since. -/
theorem Gives.exists_reloads (hbegins : earlier <+: calls) (h : Gives earlier c model) :
    model.config.Alike c ∧ Reloads calls model.config c model model := by
  obtain ⟨first, between, rfl, hbetween, hfirst⟩ := exists_gives h.get?
  have hreloads : Reloads calls model.config c model model := ⟨first, between, hbegins, hbetween, hfirst, h⟩
  exact ⟨hreloads.number_eq_iff.1 rfl, hreloads⟩

/--
A load gives a model that was loaded with the same name, answer format and temperature since the last drop.  So
models are reused exactly as their configurations say when these three tell the configurations of the run apart.
-/
theorem reusedExactly_iff (calls : List Call) :
    (ReusedExactly calls ↔
      ∀ c d model model', Reloads calls c d model model' → (c.Alike d ↔ c.Equal d)) ∧
    (∀ earlier c model, earlier <+: calls → Gives earlier c model →
      model.config.Alike c ∧ Reloads calls model.config c model model) ∧
    (∀ c d model model', Reloads calls c d model model' → (model.number = model'.number ↔ c.Alike d)) ∧
    (∀ earlier c refused,
      (((after {} earlier).load c refused).model = none ↔ refused = true ∧ ∀ first between d model,
        earlier = first ++ between → .unload ∉ between → Gives first d model → ¬d.Alike c) ∧
      (((after {} earlier).load c refused).model = none →
        after {} (earlier ++ [.load c refused]) = after {} earlier)) := by
  refine ⟨⟨fun h c d model model' hreloads => ?_, fun h => ⟨?_, ?_⟩⟩, ?_, ?_, ?_⟩
  · exact hreloads.number_eq_iff.symm.trans (h.object c d model model' hreloads)
  · intro earlier c model hbegins hgives
    obtain ⟨halike, hreloads⟩ := hgives.exists_reloads hbegins
    exact (h _ _ _ _ hreloads).1 halike
  · intro c d model model' hreloads
    exact hreloads.number_eq_iff.trans (h c d model model' hreloads)
  · exact fun earlier c model hbegins hgives => hgives.exists_reloads hbegins
  · exact fun c d model model' hreloads => hreloads.number_eq_iff
  · refine fun earlier c refused => ⟨model_eq_none_iff, fun hnone => ?_⟩
    rw [after_concat, perform, cache_load_of_none hnone]

/-- The configuration that is made when only the account is given. -/
def accountConfig (account : String) : ModelConfig where
  modelName := ModelConfig.defaultModel
  apiKey := some account
  temperature := Double.ofDecimal false 2 (-1)
  maxTokens := 8192
  topP := Double.ofDecimal false 95 (-2)
  topK := 40
  jsonMode := false

/-- A model that was loaded for one account is given for another. -/
theorem reused_for_other_account :
    ModelConfig.ofFields none [("api_key", .str "k")] = .accepted (accountConfig "k") ∧
      ModelConfig.ofFields none [("api_key", .str "k2")] = .accepted (accountConfig "k2") ∧
      Gives [.load (accountConfig "k") false, .load (accountConfig "k2") false] (accountConfig "k2")
        ⟨0, accountConfig "k"⟩ ∧
      ¬ReusedExactly [.load (accountConfig "k") false, .load (accountConfig "k2") false] := by
  have hgives : Gives [.load (accountConfig "k") false, .load (accountConfig "k2") false] (accountConfig "k2")
      ⟨0, accountConfig "k"⟩ := by
    refine ⟨[.load (accountConfig "k") false], false, rfl, ?_⟩
    have hkept : (after {} [.load (accountConfig "k") false]).models.get? (key (accountConfig "k")) =
        some ⟨0, accountConfig "k"⟩ := get?_load rfl
    have halike : key (accountConfig "k2") = key (accountConfig "k") := rfl
    unfold load
    rw [halike, hkept]
  refine ⟨rfl, rfl, hgives, fun h => ?_⟩
  have hequal := h.config _ _ _ (List.prefix_refl _) hgives
  exact absurd hequal.apiKey (by decide)

end Runs

end ModelCache

end Agent

end ComponentBuilder
