import OcppKit.Decode
import OcppKit.Library.JsonRewrites
import OcppKit.Reference

/-!
# What a repair leaves alone

Decoding leniently should not change what it does not repair (`OcppKit.Conservative`): a payload
the strict parse reads is read as that, and one it does not read is read as if at most the allowed
number of its strings had been written otherwise – as the number they spell, or as the timestamp
they almost are (`OcppKit.Respelled`).

It is so for every type of payloads exactly where a repair is harmless
(`OcppKit.conservative_iff`). The payload is parsed again from a generic value, and this
has its numbers as the library writes them and no name twice. A number whose digits are not those
it was sent with is another decimal.
-/

namespace OcppKit

/-! ### Timestamps -/

/-- A timestamp with what was missing – a `T` in the place of a space, an offset at its end – and
without white space around it. -/
def Supplied (text text' : String) : Prop :=
  ∃ t, (t = trimSpace text.toList ∨ ∃ before after,
      trimSpace text.toList = before ++ ' ' :: after ∧ t = before ++ 'T' :: after) ∧
    (text' = String.ofList t ∨ text' = String.ofList (t ++ ['Z']))

/-- The `T` is supplied, or nothing is. -/
theorem supplyT_cases (text : List Char) : supplyT text = text ∧ (' ' ∈ text → 'T' ∈ text) ∨
    ∃ before after, text = before ++ ' ' :: after ∧ supplyT text = before ++ 'T' :: after := by
  rw [supplyT]
  split
  next index hindex =>
    obtain ⟨hlt, hspace, -⟩ := List.findIdx?_eq_some_iff_getElem.mp hindex
    have hspace' : text[index] = ' ' := of_decide_eq_true hspace
    split
    next hT => exact Or.inl ⟨rfl, fun _ => hT⟩
    next =>
      refine Or.inr ⟨text.take index, text.drop (index + 1), ?_, List.set_eq_take_cons_drop _ hlt⟩
      rw [← hspace', List.getElem_cons_drop, List.take_append_drop]
  next hnone =>
    refine Or.inl ⟨rfl, fun hmem => ?_⟩
    exact absurd (List.findIdx?_eq_none_iff.mp hnone ' ' hmem) (by decide)

/-- **A timestamp is only completed.** -/
theorem supplied_normalizeDatetime (text : String) : Supplied text (normalizeDatetime text) := by
  refine ⟨supplyT (trimSpace text.toList), ?_, ?_⟩
  · rcases supplyT_cases (trimSpace text.toList) with ⟨h, -⟩ | h
    · exact Or.inl h
    · exact Or.inr h
  · rw [normalizeDatetime]
    split
    · exact Or.inl rfl
    · exact Or.inr rfl

theorem trimSpace_replace {before after : List Char} {c d : Char}
    (h : trimSpace (before ++ c :: after) = before ++ c :: after) (hd : isUnicodeSpace d = false) :
    trimSpace (before ++ d :: after) = before ++ d :: after := by
  obtain ⟨hhead, hlast⟩ := trimSpace_eq_self_iff.mp h (by simp)
  refine trimSpace_eq_self_iff.mpr fun _ => ⟨?_, ?_⟩
  · rcases before with _ | ⟨b, before⟩
    · exact hd
    · exact hhead
  · rcases List.eq_nil_or_concat after with rfl | ⟨after, a, rfl⟩
    · simpa using hd
    · simpa using hlast

theorem trimSpace_concat {text : List Char} {c : Char} (h : trimSpace text = text)
    (hc : isUnicodeSpace c = false) : trimSpace (text ++ [c]) = text ++ [c] := by
  refine trimSpace_eq_self_iff.mpr fun _ => ⟨?_, by simpa using hc⟩
  rcases text with _ | ⟨b, text⟩
  · exact hc
  · exact (trimSpace_eq_self_iff.mp h (by simp)).1

/-- What has its `T` and is trimmed, and ends in an offset, is left as it is. -/
theorem normalizeDatetime_eq_self {text : List Char} (htrim : trimSpace text = text)
    (hT : ' ' ∈ text → 'T' ∈ text) (hoffset : hasOffset text = true) :
    normalizeDatetime (String.ofList text) = String.ofList text := by
  have hsupplied : supplyT text = text := by
    rcases supplyT_cases text with ⟨h, -⟩ | ⟨before, after, rfl, h⟩
    · exact h
    · rw [supplyT]
      split
      · rw [if_pos (hT (by simp))]
      · rfl
  rw [normalizeDatetime, String.toList_ofList, htrim, hsupplied, if_pos hoffset]

/-- **A timestamp is completed once.** -/
theorem normalizeDatetime_idem (text : String) :
    normalizeDatetime (normalizeDatetime text) = normalizeDatetime text := by
  have htrim := trimSpace_trimSpace text.toList
  obtain ⟨hwithT, hT⟩ : trimSpace (supplyT (trimSpace text.toList)) =
      supplyT (trimSpace text.toList) ∧
        (' ' ∈ supplyT (trimSpace text.toList) → 'T' ∈ supplyT (trimSpace text.toList)) := by
    rcases supplyT_cases (trimSpace text.toList) with ⟨h, hT⟩ | ⟨before, after, heq, h⟩
    · rw [h]
      exact ⟨htrim, hT⟩
    · rw [h]
      rw [heq] at htrim
      exact ⟨trimSpace_replace htrim (by decide), fun _ => by simp⟩
  conv => rhs; rw [normalizeDatetime]
  conv => lhs; arg 1; rw [normalizeDatetime]
  split
  next hoffset => exact normalizeDatetime_eq_self hwithT hT hoffset
  next =>
    refine normalizeDatetime_eq_self (trimSpace_concat hwithT (by decide)) (fun hmem => ?_) ?_
    · rcases List.mem_append.mp hmem with hmem | hmem
      · exact List.mem_append_left _ (hT hmem)
      · exact absurd hmem (by decide)
    · rw [hasOffset, List.getLast?_concat]
      rfl

variable [JsonText] [TimestampText] [SerdeJson]

/-! ### Strings that are read as something else -/

/-- **What a string is read as**, if not as a string: the number it spells, or the timestamp it
almost is. -/
inductive Respelled (options : DecodeOptions) : String → JsonTree String → Prop
  /-- The number. -/
  | number {text : String} : options.numericStrings = .coerce →
      (SerdeJson.held text).isSome = true → Respelled options text (.leaf (.number text))
  /-- The timestamp. A space is not forgiven by all options. -/
  | timestamp {text : String} : options.datetime ≠ .strict →
      (options.datetime ≠ .allowSpace → ' ' ∉ text.toList) → normalizeDatetime text ≠ text →
      TimestampText.parses (normalizeDatetime text) = true →
      Respelled options text (.leaf (.string (normalizeDatetime text)))

namespace Respelled

variable {options : DecodeOptions} {text : String} {x : JsonTree String}

theorem leaf (h : Respelled options text x) : ∃ l, x = .leaf l := by
  cases h with
  | number => exact ⟨_, rfl⟩
  | timestamp => exact ⟨_, rfl⟩

/-- A timestamp that was completed is not read as anything else. -/
theorem once {text' : String} (h : Respelled options text (.leaf (.string text'))) :
    ¬ Respelled options text' x := by
  generalize hleaf : JsonTree.leaf (JsonLeaf.string text') = y at h
  cases h with
  | number => cases hleaf
  | timestamp _ _ _ hparses =>
      obtain rfl := JsonLeaf.string.inj (JsonTree.leaf.inj hleaf)
      intro h
      cases h with
      | number _ hheld =>
          rw [SerdeJson.held_of_parses hparses] at hheld
          cases hheld
      | timestamp _ _ hne _ => exact hne (normalizeDatetime_idem text)

theorem number_inj {token : String} (h : Respelled options text (.leaf (.number token))) :
    token = text := by
  generalize hleaf : JsonTree.leaf (JsonLeaf.number token) = y at h
  cases h with
  | number => exact JsonLeaf.number.inj (JsonTree.leaf.inj hleaf)
  | timestamp => cases JsonTree.leaf.inj hleaf

end Respelled

/-- The string is replaced by what it is read as, as the library writes it. -/
theorem repairOf_respelled {options : DecodeOptions} {kind : DecodeErrorKind} {text : String}
    {x : JsonTree String} (h : repairOf options kind text = some x) :
    ∃ y, Respelled options text y ∧ y.map heldToken = x ∧
      (kind = .type ∧ y = .leaf (.number text) ∨
        kind = .property ∧ ∃ text', TimestampText.parses text' = true ∧
          y = .leaf (.string text')) := by
  rw [repairOf] at h
  split at h
  next hcoerce =>
    simp only [Bool.and_eq_true, decide_eq_true_eq] at hcoerce
    obtain ⟨⟨hcoerce, hkind⟩, hheld⟩ := hcoerce
    obtain ⟨number, hnumber, rfl⟩ := Option.map_eq_some_iff.mp h
    refine ⟨_, .number hcoerce hheld, ?_, Or.inl ⟨hkind, rfl⟩⟩
    rw [JsonTree.map_leaf, JsonLeaf.map, heldToken, hnumber, Option.getD_some]
  next =>
    split at h
    next hdatetime =>
      simp only [Bool.and_eq_true, decide_eq_true_eq] at hdatetime
      split at h
      · cases h
      next hspace =>
        simp only [Bool.and_eq_true, decide_eq_true_eq, not_and] at hspace
        split at h
        next hparses =>
          simp only [Bool.and_eq_true, decide_eq_true_eq] at hparses
          obtain rfl := Option.some.inj h
          exact ⟨_, .timestamp hdatetime.1 hspace hparses.1 hparses.2, rfl,
            Or.inr ⟨hdatetime.2, _, hparses.2, rfl⟩⟩
        · cases h
    · cases h

/-! ### Numbers that are read again -/

/-- **A number that is read as the decimal it is written as**, when it is read again as the library
writes it. -/
def Exact (token : String) : Prop :=
  ∀ number, SerdeJson.held token = some number → Decimal.fromStr number = Decimal.fromStr token

theorem Exact.seen_heldToken {token : String} (h : Exact token)
    (hheld : (SerdeJson.held token).isSome = true) : seen (heldToken token) = seen token := by
  obtain ⟨number, hnumber⟩ := Option.isSome_iff_exists.mp hheld
  rw [heldToken, hnumber, Option.getD_some, seen, seen, SerdeJson.held_held hnumber, hnumber,
    h number hnumber]

theorem toValue_eq_ok_iff {payload : RawValue} {json : JsonTree String} :
    toValue payload = .ok json ↔ (SerdeJson.shallow (SerdeJson.tree payload) = true ∧
      ∀ token, .number token ∈ (SerdeJson.tree payload).leaves →
        (SerdeJson.held token).isSome = true) ∧
      (SerdeJson.tree payload).collapse.map heldToken = json := by
  have hleaves : (SerdeJson.tree payload).leaves.all leafHeld = true ↔
      ∀ token, .number token ∈ (SerdeJson.tree payload).leaves →
        (SerdeJson.held token).isSome = true := by
    rw [List.all_eq_true]
    constructor
    · exact fun h token htoken => h _ htoken
    · rintro h (_ | b | token | text) hl
      · rfl
      · rfl
      · exact h token hl
      · rfl
  rw [toValue, ← hleaves, ← Bool.and_eq_true]
  split
  next h => rw [Except.ok.injEq, and_iff_right h]
  next h => exact iff_of_false (by simp) fun hok => h hok.1

/-! ### The loop -/

variable {α : Type} {T : Payload α} {options : DecodeOptions} {start c : JsonTree String} {n : ℕ}

/-- **What the value is after a number of repairs**, but for how its numbers are written. -/
structure Intermediate (options : DecodeOptions) (start c : JsonTree String) (n : ℕ) : Prop where
  /-- The repairs. -/
  rewrites : JsonTree.RewritesN (Respelled options) n start c
  /-- The members are in order. -/
  sorted : c.Sorted
  /-- The numbers do not change when they are read again. -/
  exact_ : ∀ token, .number token ∈ c.leaves → (SerdeJson.held token).isSome = true ∧ Exact token
  /-- The strings are those of the payload, but for the timestamps. -/
  strings : ∀ path text, JsonTree.at_ path c = some (.leaf (.string text)) →
    JsonTree.at_ path start = some (.leaf (.string text)) ∨ TimestampText.parses text = true

theorem Intermediate.map_seen (h : Intermediate options start c n) :
    (c.map heldToken).map seen = c.map seen := by
  rw [JsonTree.map_map]
  exact JsonTree.map_congr fun token htoken =>
    (h.exact_ token htoken).2.seen_heldToken (h.exact_ token htoken).1

/-- **A repair** replaces one string of the value. -/
theorem Intermediate.applyRepair (h : Intermediate options start c n) {error : DecodeError}
    {json : JsonTree String}
    (hexact : ∀ text, JsonTree.at_ (pointerPath error.path) start = some (.leaf (.string text)) →
      (repairOf options .type text).isSome = true → Exact text)
    (hrepair : OcppKit.applyRepair options (c.map heldToken) error = some json) :
    ∃ c', Intermediate options start c' (n + 1) ∧ c'.map heldToken = json := by
  rw [OcppKit.applyRepair] at hrepair
  split at hrepair
  next text hat =>
    obtain ⟨x, hx, rfl⟩ := Option.map_eq_some_iff.mp hrepair
    rw [JsonTree.at_map_string] at hat
    obtain ⟨y, hrespelled, rfl, hy⟩ := repairOf_respelled hx
    -- the one string, to know which it is
    have hone : JsonTree.Rewrites (fun s x => s = text ∧ x = y) c
        (JsonTree.put (pointerPath error.path) y c) :=
      JsonTree.rewrites_put h.sorted.distinct hat ⟨rfl, rfl⟩
    have hleaf : ∀ s x, s = text ∧ x = y → ∃ l, x = .leaf l := by
      rintro s x ⟨rfl, rfl⟩
      exact hrespelled.leaf
    refine ⟨JsonTree.put (pointerPath error.path) y c, ⟨?_, ?_, ?_, ?_⟩,
      (JsonTree.put_map _ _ _ _).symm⟩
    · exact h.rewrites.succ (JsonTree.rewrites_put h.sorted.distinct hat hrespelled)
    · refine (hone.ordered fun s x hsx => ?_).mpr h.sorted
      obtain ⟨l, rfl⟩ := hleaf s x hsx
      exact JsonTree.ordered_leaf l
    · obtain ⟨before, s, x, after, ⟨rfl, rfl⟩, hleaves, hleaves'⟩ := hone.leaves
      intro token htoken
      rw [hleaves', List.mem_append, List.mem_append] at htoken
      have hkept : .number token ∈ before ∨ .number token ∈ after →
          (SerdeJson.held token).isSome = true ∧ Exact token := by
        refine fun hmem => h.exact_ token ?_
        rw [hleaves]
        rcases hmem with hmem | hmem
        · exact List.mem_append_left _ hmem
        · exact List.mem_append_right _ (List.mem_cons_of_mem _ hmem)
      rcases htoken with hmem | hmem | hmem
      · exact hkept (Or.inl hmem)
      · rcases hy with ⟨hkind, rfl⟩ | ⟨-, text', -, rfl⟩
        · obtain rfl := JsonLeaf.number.inj (List.mem_singleton.mp hmem)
          have hheld : (SerdeJson.held token).isSome = true := by
            cases hrespelled with
            | number _ hheld => exact hheld
          -- a timestamp is no number, so it is a string of the payload
          rcases h.strings _ _ hat with hstart | hparses
          · refine ⟨hheld, hexact token hstart ?_⟩
            rw [← hkind, hx]
            rfl
          · rw [SerdeJson.held_of_parses hparses] at hheld
            cases hheld
        · cases List.mem_singleton.mp hmem
      · exact hkept (Or.inr hmem)
    · intro path text₂ hat₂
      rcases hone.of_at_leaf hleaf hat₂ with hkept | ⟨s, -, hreplaced⟩
      · exact h.strings path text₂ hkept
      · rcases hy with ⟨-, rfl⟩ | ⟨-, text', hparses, rfl⟩
        · cases hreplaced
        · obtain rfl := JsonLeaf.string.inj (JsonTree.leaf.inj hreplaced)
          exact Or.inr hparses
  · cases hrepair

/-- **The repairs of a run**: what is read is the value after some of them, with the numbers as
they are written. -/
theorem Intermediate.repairLoop
    (hexact : ∀ path text,
      JsonTree.at_ (pointerPath (pointerFrom path)) start = some (.leaf (.string text)) →
      (repairOf options .type text).isSome = true → Exact text) {value : α} {repairs : ℕ}
    {error : SerdeError} (h : Intermediate options start c n)
    (hrun : OcppKit.repairLoop T options repairs (c.map heldToken) (classify error) = .ok value) :
    ∃ n' c', n' ≤ n + repairs ∧ Intermediate options start c' n' ∧
      T.deserialize (c'.map seen) = .ok value := by
  induction repairs generalizing c n error with
  | zero => cases hrun
  | succ repairs ih =>
      rw [OcppKit.repairLoop] at hrun
      split at hrun
      · cases hrun
      next json hrepair =>
        obtain ⟨c', hnext, rfl⟩ := h.applyRepair (hexact error.path) hrepair
        rw [Payload.parseTree, hnext.map_seen] at hrun
        rcases hread : T.deserialize (c'.map seen) with next_ | value'
        · rw [hread] at hrun
          dsimp only at hrun
          split at hrun
          · cases hrun
          · obtain ⟨n', c'', hn', hlast, hvalue⟩ := ih hnext hrun
            exact ⟨n', c'', by omega, hlast, hvalue⟩
        · rw [hread] at hrun
          obtain rfl := Except.ok.inj hrun
          exact ⟨n + 1, c', by omega, hnext, hread⟩

/-! ### Decoding is conservative -/

variable {payload : RawValue}

/-- **Only what is repaired is changed**: a payload that the strict parse reads is read as that,
and one that it does not read is read as with some strings written otherwise. -/
structure Conservative (T : Payload α) (options : DecodeOptions) (payload : RawValue) : Prop where
  /-- What the strict parse reads is what is worked on. -/
  strict : ∀ value, T.parse payload = .ok value → decodePayload T options payload =
    (admits options payload).bind fun _ => accept T options payload value
  /-- What comes of repairs is what the strict parse reads once these strings are replaced. -/
  repaired : ∀ error value, T.parse payload = .error error →
    decodePayload T options payload = .ok value →
    ∃ n t, n ≤ options.maxRepairs ∧
      JsonTree.RewritesN (Respelled options) n (SerdeJson.tree payload) t ∧
      T.parseTree t = .ok value

/-- **No repair does harm**: where an error can point at a string that is repaired, no name stands
twice, and every number – those that are sent as strings among them – is exact. -/
def Harmless (options : DecodeOptions) (payload : RawValue) : Prop :=
  admits options payload = .ok () → ∀ json, toValue payload = .ok json → options.maxRepairs ≠ 0 →
    ∀ path kind text,
      JsonTree.at_ (pointerPath (pointerFrom path)) json = some (.leaf (.string text)) →
      (repairOf options kind text).isSome = true →
      (SerdeJson.tree payload).Distinct ∧
        (∀ token, .number token ∈ (SerdeJson.tree payload).leaves → Exact token) ∧
        (kind = .type → Exact text)

/-- A value that is accepted is the one that was parsed. -/
theorem eq_of_accept {value result : α} (h : accept T options payload value = .ok result) :
    result = value := by
  have hvalidated : validated T options value = .ok result → result = value := by
    intro h
    rw [validated] at h
    split at h
    · cases h
    · exact (Except.ok.inj h).symm
  rw [accept] at h
  split at h
  · split at h
    · cases h
    · cases h
    · exact hvalidated h
  · exact hvalidated h

theorem decodePayload_of_parse {value : α} (h : T.parse payload = .ok value) :
    decodePayload T options payload =
      (admits options payload).bind fun _ => accept T options payload value := by
  rw [decodePayload, h]
  rcases admits options payload with error | _
  · rfl
  · rfl

/-- **What is decoded after repairs** was read by the loop, from the generic value. -/
theorem repairLoop_of_decodePayload {error : DecodeError} {value : α}
    (hstrict : T.parse payload = .error error)
    (hdecode : decodePayload T options payload = .ok value) :
    admits options payload = .ok () ∧ ∃ json, toValue payload = .ok json ∧
      repairLoop T options options.maxRepairs json error = .ok value := by
  rw [decodePayload, hstrict] at hdecode
  rcases hadmits : admits options payload with e | _
  · rw [hadmits] at hdecode
    cases hdecode
  rw [hadmits] at hdecode
  dsimp only at hdecode
  split at hdecode
  · rw [repairAndParse] at hdecode
    rcases hjson : toValue payload with e | json
    · rw [hjson] at hdecode
      cases hdecode
    rw [hjson] at hdecode
    dsimp only at hdecode
    rcases hloop : repairLoop T options options.maxRepairs json error with e | value'
    · rw [hloop] at hdecode
      cases hdecode
    rw [hloop] at hdecode
    obtain rfl := eq_of_accept hdecode
    exact ⟨rfl, json, rfl, hloop⟩
  · cases hdecode

/-- Where the loop reads anything, it made a repair. -/
theorem repairOf_of_repairLoop {json : JsonTree String} {repairs : ℕ} {error : DecodeError}
    {value : α} (h : repairLoop T options repairs json error = .ok value) : repairs ≠ 0 ∧
      ∃ text, JsonTree.at_ (pointerPath error.path) json = some (.leaf (.string text)) ∧
        (repairOf options error.kind text).isSome = true := by
  rcases repairs with _ | repairs
  · cases h
  refine ⟨repairs.succ_ne_zero, ?_⟩
  rw [repairLoop] at h
  split at h
  · cases h
  next json' hrepair =>
    rw [applyRepair] at hrepair
    split at hrepair
    next text hat =>
      refine ⟨text, hat, ?_⟩
      rcases hx : repairOf options error.kind text with _ | x
      · rw [hx] at hrepair
        cases hrepair
      · rfl
    · cases hrepair

/-- Before any repair. -/
theorem intermediate_start (hdistinct : (SerdeJson.tree payload).Distinct)
    (hexact : ∀ token, .number token ∈ (SerdeJson.tree payload).leaves →
      (SerdeJson.held token).isSome = true ∧ Exact token) :
    Intermediate options (SerdeJson.tree payload).collapse (SerdeJson.tree payload).collapse 0 where
  rewrites := .zero _
  sorted := JsonTree.sorted_collapse _
  exact_ token htoken := hexact token ((JsonTree.mem_leaves_collapse hdistinct).mp htoken)
  strings _ _ hat := Or.inl hat

/-- **Where no repair does harm, decoding is conservative.** -/
theorem conservative_of_harmless (T : Payload α) (h : Harmless options payload) :
    Conservative T options payload where
  strict value hparse := decodePayload_of_parse hparse
  repaired := by
    intro error value hstrict hdecode
    obtain ⟨hadmits, json, hjson, hloop⟩ := repairLoop_of_decodePayload hstrict hdecode
    obtain ⟨hrepairs, text, hat, hrepair⟩ := repairOf_of_repairLoop hloop
    obtain ⟨⟨-, hheld⟩, rfl⟩ := toValue_eq_ok_iff.mp hjson
    -- the error is one of the strict parse, and so points where an error can
    obtain ⟨first, rfl⟩ : ∃ first, error = classify first := by
      rw [Payload.parse, Payload.parseTree] at hstrict
      split at hstrict
      · cases hstrict
      · exact ⟨_, (Except.error.inj hstrict).symm⟩
    obtain ⟨hdistinct, hnumbers, -⟩ :=
      h hadmits _ hjson hrepairs first.path _ text hat hrepair
    have hstart : Intermediate options _ _ 0 := intermediate_start hdistinct fun token htoken =>
      ⟨hheld token htoken, hnumbers token htoken⟩
    obtain ⟨n, c, hn, hlast, hvalue⟩ := hstart.repairLoop (fun path text hat hrepair =>
      (h hadmits _ hjson hrepairs path .type text (JsonTree.at_map_string.mpr hat) hrepair).2.2
        rfl) hloop
    obtain ⟨t, hrewrites, rfl⟩ := hlast.rewrites.of_collapse hdistinct fun s x hrel => hrel.leaf
    refine ⟨n, t, by omega, hrewrites, ?_⟩
    have hdistinct' : (t.map seen).Distinct :=
      JsonTree.ordered_map.mpr ((hrewrites.ordered fun s x hrel => hrel.leaf).mpr hdistinct)
    rw [← JsonTree.map_collapse, ← T.ordered _ _ hdistinct'] at hvalue
    rw [Payload.parseTree, hvalue]

/-! ### A type that misses nothing -/

open Classical in
/-- **A type that sees the whole document**, and reads one that repeats no name, unless a certain
string stands at a certain place. -/
noncomputable def probe (path message text : String) : Payload (JsonTree SeenNumber) where
  deserialize t :=
    if t.Distinct ∧
        JsonTree.at_ (pointerPath (pointerFrom path)) t ≠ some (.leaf (.string text)) then
      .ok t.collapse
    else .error ⟨path, .data, message⟩
  serialize _ := .ok (.leaf .null)
  validate _ := []
  ordered t value hdistinct := by
    simp only [hdistinct, (JsonTree.sorted_collapse t).distinct, true_and, ne_eq,
      JsonTree.at_collapse_leaf hdistinct, (JsonTree.sorted_collapse t).collapse_eq]

omit [JsonText] [TimestampText] [SerdeJson] in
theorem probe_eq_ok_iff {path message text : String} {t value : JsonTree SeenNumber} :
    (probe path message text).deserialize t = .ok value ↔
      (t.Distinct ∧
        JsonTree.at_ (pointerPath (pointerFrom path)) t ≠ some (.leaf (.string text))) ∧
      t.collapse = value := by
  simp only [probe]
  split
  next h => rw [Except.ok.injEq, and_iff_right h]
  next h => exact iff_of_false (by simp) fun hok => h hok.1

omit [JsonText] [TimestampText] [SerdeJson] in
theorem probe_eq_error {path message text : String} {t : JsonTree SeenNumber} (h : t.Distinct →
    JsonTree.at_ (pointerPath (pointerFrom path)) t = some (.leaf (.string text))) :
    (probe path message text).deserialize t = .error ⟨path, .data, message⟩ := by
  simp only [probe]
  rw [if_neg]
  rintro ⟨hdistinct, hne⟩
  exact hne (h hdistinct)

omit [JsonText] [TimestampText] [SerdeJson] in
theorem diff_leaf (json : JsonTree String) (l : JsonLeaf String) : diff json (.leaf l) = none := by
  rcases json with l' | items | members
  · rfl
  · rfl
  · rfl

/-- What it reads is accepted. -/
theorem accept_probe {path message text : String} {json : JsonTree String}
    (hjson : toValue payload = .ok json) (value : JsonTree SeenNumber) :
    accept (probe path message text) options payload value = .ok value := by
  rw [accept, firstUnknownField, hjson]
  simp only [probe, diff_leaf, Option.map_none]
  split
  · rfl
  · rfl

/-- The text of an error of one of the two kinds that are repaired. -/
def messageOf (kind : DecodeErrorKind) : String := if kind = .type then "invalid type" else ""

omit [JsonText] [TimestampText] [SerdeJson] in
theorem kind_classify {kind : DecodeErrorKind} (h : kind = .type ∨ kind = .property)
    (path : String) : (classify ⟨path, .data, messageOf kind⟩).kind = kind := by
  have hlength : "missing field".toList.isPrefixOf "invalid type".toList = false ∧
      "invalid length".toList.isPrefixOf "invalid type".toList = false ∧
      "invalid type".toList.isPrefixOf "invalid type".toList = true := by decide
  rcases h with rfl | rfl
  · simp only [classify, messageOf, if_true, hlength, Bool.or_false, Bool.false_eq_true, if_false]
  · rfl

/-- A number that is seen alike as another is written is exact. -/
theorem exact_of_seen_eq {token token' : String} (h : seen (heldToken token) = seen token') :
    Exact token' := by
  intro number hnumber
  obtain ⟨hheld, hdecimal⟩ := SeenNumber.mk.inj h
  rw [hnumber] at hheld
  rcases htoken : SerdeJson.held token with _ | number'
  · rw [heldToken, htoken, Option.getD_none, htoken] at hheld
    cases hheld
  · rw [heldToken, htoken, Option.getD_some] at hheld hdecimal
    rw [SerdeJson.held_held htoken] at hheld
    obtain rfl := Option.some.inj hheld
    exact hdecimal

/-- It does not read a payload with the string. -/
theorem parse_probe {path message text : String}
    (hat : JsonTree.at_ (pointerPath (pointerFrom path)) (SerdeJson.tree payload).collapse =
      some (.leaf (.string text))) :
    (probe path message text).parse payload = .error (classify ⟨path, .data, message⟩) := by
  rw [Payload.parse, Payload.parseTree, probe_eq_error]
  intro hdistinct
  rw [JsonTree.at_map_string]
  exact (JsonTree.at_collapse_leaf (JsonTree.ordered_map.mp hdistinct)).mp hat

/-- **It reads the payload after one repair.** -/
theorem decodePayload_probe {path text : String} {kind : DecodeErrorKind} {y : JsonTree String}
    (hadmits : admits options payload = .ok ())
    (hjson : toValue payload = .ok ((SerdeJson.tree payload).collapse.map heldToken))
    (hrepairs : options.maxRepairs ≠ 0)
    (hat : JsonTree.at_ (pointerPath (pointerFrom path)) (SerdeJson.tree payload).collapse =
      some (.leaf (.string text)))
    (hrepair : repairOf options kind text = some (y.map heldToken))
    (hrespelled : Respelled options text y) :
    decodePayload (probe path (messageOf kind) text) options payload =
      .ok (((JsonTree.put (pointerPath (pointerFrom path)) y
        (SerdeJson.tree payload).collapse).map heldToken).map seen) := by
  have hsorted := JsonTree.sorted_collapse (SerdeJson.tree payload)
  have hput := ((JsonTree.rewrites_put hsorted.distinct hat hrespelled).ordered fun s x hrel => by
    obtain ⟨l, rfl⟩ := hrel.leaf
    exact JsonTree.ordered_leaf l).mpr hsorted
  have hthere := JsonTree.at_put (x := y) hat
  generalize hc : JsonTree.put (pointerPath (pointerFrom path)) y
    (SerdeJson.tree payload).collapse = c at hput hthere
  have hseen : ((c.map heldToken).map seen).Sorted :=
    JsonTree.ordered_map.mpr (JsonTree.ordered_map.mpr hput)
  have hkind : kind = .type ∨ kind = .property := by
    obtain ⟨_, -, -, ⟨hkind, -⟩ | ⟨hkind, -⟩⟩ := repairOf_respelled hrepair
    · exact Or.inl hkind
    · exact Or.inr hkind
  have henabled : options.repairsEnabled = true := by
    cases hrespelled with
    | number hcoerce => simp [DecodeOptions.repairsEnabled, hcoerce]
    | timestamp hdatetime => simp [DecodeOptions.repairsEnabled, hdatetime]
  have hread : (probe path (messageOf kind) text).deserialize ((c.map heldToken).map seen) =
      .ok ((c.map heldToken).map seen) := by
    refine probe_eq_ok_iff.mpr ⟨⟨hseen.distinct, fun hstays => ?_⟩, hseen.collapse_eq⟩
    rw [JsonTree.at_map_string, JsonTree.at_map_string, hthere] at hstays
    obtain rfl := Option.some.inj hstays
    exact hrespelled.once hrespelled
  have hloop : repairLoop (probe path (messageOf kind) text) options options.maxRepairs
      ((SerdeJson.tree payload).collapse.map heldToken)
      (classify ⟨path, .data, messageOf kind⟩) = .ok ((c.map heldToken).map seen) := by
    obtain ⟨repairs, hsucc⟩ := Nat.exists_eq_succ_of_ne_zero hrepairs
    have hpath : (classify ⟨path, .data, messageOf kind⟩).path = pointerFrom path := rfl
    rw [hsucc, repairLoop, applyRepair, hpath, JsonTree.at_map_string.mpr hat]
    dsimp only
    rw [kind_classify hkind, hrepair, Option.map_some]
    dsimp only
    rw [JsonTree.put_map, hc, Payload.parseTree, hread]
  rw [decodePayload, hadmits, parse_probe hat]
  dsimp only
  rw [if_pos henabled, repairAndParse, hjson]
  dsimp only
  rw [hloop]
  exact accept_probe hjson _

/-- **Where decoding is conservative for every type, no repair does harm.** -/
theorem harmless_of_conservative
    (h : ∀ T : Payload (JsonTree SeenNumber), Conservative T options payload) :
    Harmless options payload := by
  intro hadmits json hjson hrepairs path kind text hat hrepair
  obtain ⟨x, hx⟩ := Option.isSome_iff_exists.mp hrepair
  obtain ⟨y, hrespelled, rfl, hy⟩ := repairOf_respelled hx
  obtain ⟨-, rfl⟩ := toValue_eq_ok_iff.mp hjson
  rw [JsonTree.at_map_string] at hat
  have hdecode := decodePayload_probe hadmits hjson hrepairs hat hx hrespelled
  obtain ⟨n, t, -, hrewrites, hread⟩ := (h _).repaired _ _ (parse_probe hat) hdecode
  -- what the strict parse reads is a document without repeated names, with its members in order
  rw [Payload.parseTree] at hread
  split at hread
  next value hvalue =>
    obtain rfl := Except.ok.inj hread
    obtain ⟨⟨hdistinct, -⟩, heq⟩ := probe_eq_ok_iff.mp hvalue
    have hdistinct' : t.Distinct := JsonTree.ordered_map.mp hdistinct
    have hleaf : ∀ s x, Respelled options s x → ∃ l, x = .leaf l := fun s x hrel => hrel.leaf
    refine ⟨(hrewrites.ordered hleaf).mp hdistinct', fun token htoken => ?_, ?_⟩
    · have hmem : JsonLeaf.number (seen token) ∈ (t.map seen).leaves := by
        rw [JsonTree.leaves_map]
        exact List.mem_map_of_mem (hrewrites.number_mem htoken)
      rw [← JsonTree.mem_leaves_collapse hdistinct, heq, JsonTree.map_map,
        JsonTree.leaves_map] at hmem
      obtain ⟨_ | b | token' | s, -, hl⟩ := List.mem_map.mp hmem
      · cases hl
      · cases hl
      · exact exact_of_seen_eq (JsonLeaf.number.inj hl)
      · cases hl
    · rintro rfl
      rcases hy with ⟨-, rfl⟩ | ⟨hkind, -⟩
      · -- the number is where the string was, so it is the one the string spells
        have hthere : JsonTree.at_ (pointerPath (pointerFrom path)) (t.map seen).collapse =
            some (.leaf (.number (seen (heldToken text)))) := by
          rw [heq, JsonTree.at_map_leaf]
          refine ⟨.number (heldToken text), ?_, rfl⟩
          rw [JsonTree.at_map_leaf]
          exact ⟨.number text, JsonTree.at_put hat, rfl⟩
        rw [JsonTree.at_collapse_leaf hdistinct, JsonTree.at_map_leaf] at hthere
        obtain ⟨l, hl, hseen⟩ := hthere
        have hat' := (JsonTree.at_collapse_leaf ((hrewrites.ordered hleaf).mp hdistinct')).mp hat
        rcases hrewrites.at_string hleaf (fun s s' x hrel => hrel.once) hat' with
          hkept | ⟨x, hrel, hreplaced⟩
        · obtain rfl := JsonTree.leaf.inj (Option.some.inj (hl.symm.trans hkept))
          cases hseen
        · obtain rfl := Option.some.inj (hl.symm.trans hreplaced)
          rcases l with _ | b | token | s
          · cases hseen
          · cases hseen
          · obtain rfl := hrel.number_inj
            exact exact_of_seen_eq (JsonLeaf.number.inj hseen).symm
          · cases hseen
      · cases hkind
  · cases hread

/-- **Decoding is conservative for every type exactly where no repair does harm.** -/
theorem conservative_iff (options : DecodeOptions) (payload : RawValue) :
    (∀ (α : Type) (T : Payload α), Conservative T options payload) ↔ Harmless options payload :=
  ⟨fun h => harmless_of_conservative (h _), fun h _ T => conservative_of_harmless T h⟩

end OcppKit

namespace OcppKit.Reference

/-! ### A priority that costs a digit -/

/-- No text is a timestamp. -/
scoped instance instTimestampText : TimestampText where
  parses _ := false

/-- The text of an answer: what a transaction costs so far, and its priority. -/
def pricedText : String := "\x7b\"totalCost\":1.50,\"chargingPriority\":\"1\"\x7d"

/-- The answer. -/
def priced : RawValue := raw pricedText

/-- Its members. -/
def pricedTree : JsonTree String :=
  .object [("totalCost", .leaf (.number "1.50")), ("chargingPriority", .leaf (.string "1"))]

/-- The library, as far as this text goes. -/
scoped instance instSerdeJson : SerdeJson where
  tree payload := if payload.get = pricedText then pricedTree else .leaf .null
  held text :=
    if text = "1.50" ∨ text = "1.5" then some "1.5" else if text = "1" then some "1" else none
  shallow _ := true
  valueError _ := ""
  held_held := by
    intro token number h
    split at h
    · obtain rfl := Option.some.inj h
      rfl
    · split at h
      · obtain rfl := Option.some.inj h
        rfl
      · cases h
  held_of_parses h := by cases h

/-- The number of a member. -/
def numberAt (name : String) (t : JsonTree SeenNumber) : Option SeenNumber :=
  match JsonTree.at_ [name] t with
  | some (.leaf (.number n)) => some n
  | _ => none

theorem numberAt_eq_some_iff {name : String} {t : JsonTree SeenNumber} {n : SeenNumber} :
    numberAt name t = some n ↔ JsonTree.at_ [name] t = some (.leaf (.number n)) := by
  rw [numberAt]
  split
  next n' h => simp [h]
  next h => exact iff_of_false (by simp) (h n)

/-- A message with these two members. -/
def transactionEventResponse : Payload (Decimal × String) where
  deserialize t :=
    match numberAt "totalCost" t, numberAt "chargingPriority" t with
    | some ⟨_, .ok totalCost⟩, some ⟨some chargingPriority, _⟩ => .ok (totalCost, chargingPriority)
    | _, none => .error ⟨"chargingPriority", .data, "invalid type: string \"1\", expected i32"⟩
    | _, _ => .error ⟨"totalCost", .data, "invalid type: expected a JSON number"⟩
  serialize value := .ok (.object [("chargingPriority", .leaf (.number value.2))])
  validate _ := []
  ordered t value h := by
    have hnumber : ∀ name, numberAt name t.collapse = numberAt name t := by
      intro name
      ext n
      rw [numberAt_eq_some_iff, numberAt_eq_some_iff, JsonTree.at_collapse_leaf h]
    simp only [hnumber]

/-- The cost that is read is the one that is seen. -/
theorem decimal_of_transactionEventResponse {t : JsonTree SeenNumber} {value : Decimal × String}
    (h : transactionEventResponse.deserialize t = .ok value) :
    ∃ n, numberAt "totalCost" t = some n ∧ n.decimal = .ok value.1 := by
  simp only [transactionEventResponse] at h
  split at h
  next held totalCost chargingPriority decimal hcost hpriority =>
    obtain rfl := Except.ok.inj h
    exact ⟨_, hcost, rfl⟩
  · cases h
  · cases h

theorem parse_priced : transactionEventResponse.parse priced =
    .error ⟨.type, "/chargingPriority", "invalid type: string \"1\", expected i32"⟩ := by
  decide +kernel

theorem decodePayload_priced : decodePayload transactionEventResponse .lenient priced =
    .ok (⟨15, 1, by decide, by decide⟩, "1") := by
  decide +kernel

/-- **The cost is decoded without its last digit**, because the priority was sent as a string. -/
theorem scale_lost : ¬∀ (_ : JsonText) (_ : TimestampText) (_ : SerdeJson)
    (α : Type) (T : Payload α) (options : DecodeOptions) (payload : RawValue),
    options.repairsEnabled = true → Conservative T options payload := by
  intro h
  obtain ⟨n, t, -, hrewrites, hread⟩ := (h instJsonText instTimestampText instSerdeJson _
    transactionEventResponse .lenient priced rfl).repaired _ _ parse_priced decodePayload_priced
  have hcost : numberAt "totalCost" (t.map seen) = some (seen "1.50") := by
    rw [numberAt_eq_some_iff, JsonTree.at_map_leaf]
    exact ⟨.number "1.50", hrewrites.at_number (fun s x hrel => hrel.leaf) rfl, rfl⟩
  have hdecimal : Decimal.fromStr "1.50" ≠ .ok ⟨15, 1, by decide, by decide⟩ := by decide +kernel
  rw [Payload.parseTree] at hread
  split at hread
  next value hvalue =>
    obtain rfl := Except.ok.inj hread
    obtain ⟨n, hn, heq⟩ := decimal_of_transactionEventResponse hvalue
    obtain rfl := Option.some.inj (hcost.symm.trans hn)
    exact hdecimal heq
  · cases hread

end OcppKit.Reference
