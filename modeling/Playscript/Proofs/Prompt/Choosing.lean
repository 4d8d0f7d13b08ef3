import Mathlib.Algebra.Order.Ring.Rat
import Playscript.Catalog.Builtin
import Playscript.Prompt.Basic
import Playscript.Proofs.Campaign.Refusal
import Playscript.Proofs.Run.Bounds
import Playscript.Proofs.Script.Cutting
/-! Which level a text means. A number, a slug and a name are looked for one after the other, with
cases of letters of their own; in a catalog without faults none of them gets in the way of another,
unless a level has the name of another one, or a name that is a number or a slug. -/
namespace Playscript

/-! ## Cases of letters -/

namespace Text

/-- What is the same of all characters from `A` to `z` is the same of a character in lower case. -/
theorem apply_toLower {β : Type} {f : Char → β} {x : β}
    (h : ∀ d : Char, 65 ≤ d.toNat → d.toNat ≤ 122 → f d = x) (c : Char) : f c.toLower = f c := by
  unfold Char.toLower
  split
  · rename_i hcapital
    have hlow : 65 ≤ c.toNat := UInt32.le_iff_toNat_le.mp hcapital.1
    have hhigh : c.toNat ≤ 90 := UInt32.le_iff_toNat_le.mp hcapital.2
    have hlower : (c.val + 32).toNat = c.toNat + 32 := by
      rw [UInt32.toNat_add]
      exact Nat.mod_eq_of_lt (show c.toNat + 32 < 2 ^ 32 by omega)
    have hsmall : ∀ valid, f ⟨c.val + 32, valid⟩ = x := fun valid =>
      h ⟨c.val + 32, valid⟩ (show 65 ≤ (c.val + 32).toNat by omega)
        (show (c.val + 32).toNat ≤ 122 by omega)
    exact (hsmall _).trans (h c hlow (by omega)).symm
  · rfl

theorem isBlank_toLower (c : Char) : isBlank c.toLower = isBlank c := by
  apply apply_toLower (x := false)
  intro d hlow hhigh
  simp [isBlank]
  omega

theorem isDigit_toLower (c : Char) : c.toLower.isDigit = c.isDigit := by
  apply apply_toLower (x := false)
  intro d hlow hhigh
  rw [Bool.eq_false_iff, ne_eq, Char.isDigit_iff_toNat]
  exact fun hdigit => absurd (hlow.trans hdigit.2) (by decide)

/-- A character outside the letters is in lower case only from itself. -/
theorem toLower_eq_iff {mark : Char} (hmark : ¬ (65 ≤ mark.toNat ∧ mark.toNat ≤ 122)) (c : Char) :
    c.toLower = mark ↔ c = mark := by
  have hsame : (c.toLower == mark) = (c == mark) := by
    apply apply_toLower (f := (· == mark)) (x := false)
    intro d hlow hhigh
    rw [beq_eq_false_iff_ne]
    rintro rfl
    exact hmark ⟨hlow, hhigh⟩
  rw [← beq_iff_eq, hsame, beq_iff_eq]

theorem toLower_of_isDigit {c : Char} (h : c.isDigit = true) : c.toLower = c := by
  have hdigit : 48 ≤ c.toNat ∧ c.toNat ≤ 57 := Char.isDigit_iff_toNat.mp h
  exact (toLower_eq_iff (by omega) c).mpr rfl

theorem trim_map_toLower (text : List Char) :
    trim (text.map Char.toLower) = (trim text).map Char.toLower := by
  have hblank : isBlank ∘ Char.toLower = isBlank := funext isBlank_toLower
  simp only [trim, trimStart, trimEnd, ← List.map_reverse, List.dropWhile_map, hblank]

theorem sameIgnoringCase_iff {a b : String} : sameIgnoringCase a b = true ↔
    a.toList.map Char.toLower = b.toList.map Char.toLower :=
  beq_iff_eq

theorem sameIgnoringCase_congr {a b : String} (h : sameIgnoringCase a b = true) (other : String) :
    sameIgnoringCase a other = sameIgnoringCase b other := by
  rw [sameIgnoringCase, sameIgnoringCase, sameIgnoringCase_iff.mp h]

theorem sameIgnoringCase_comm (a b : String) : sameIgnoringCase a b = sameIgnoringCase b a :=
  Bool.beq_comm

/-- What is a trimmed text but for case and blanks around it is that text but for case when trimmed. -/
theorem sameIgnoringCase_trimmed {a b : String} (hb : trimmed b = b)
    (h : sameIgnoringCase a b = true) : sameIgnoringCase (trimmed a) b = true := by
  have hlower : (trimmed a).toList.map Char.toLower = (trimmed b).toList.map Char.toLower := by
    rw [trimmed, trimmed, String.toList_ofList, String.toList_ofList, ← trim_map_toLower,
      sameIgnoringCase_iff.mp h, trim_map_toLower]
  rw [hb] at hlower
  exact sameIgnoringCase_iff.mpr hlower

theorem trimmed_of_visible {text : String} (h : ∀ c ∈ text.toList, isBlank c = false) :
    trimmed text = text := by
  have hkeep {cs : List Char} (hcs : ∀ c ∈ cs, isBlank c = false) : cs.dropWhile isBlank = cs := by
    cases cs with
    | nil => rfl
    | cons c rest => exact trimStart_of_visible (hcs c List.mem_cons_self) rest
  have hback : ∀ c ∈ text.toList.reverse, isBlank c = false := fun c hc =>
    h c (List.mem_reverse.mp hc)
  rw [trimmed, trim, trimStart, hkeep h, trimEnd, hkeep hback, List.reverse_reverse,
    String.ofList_toList]

/-- Blanks around a text are cut off. -/
theorem trimmed_between {left right : String} (hleft : isBlankText left = true)
    (hright : isBlankText right = true) (word : String) :
    trimmed (left ++ word ++ right) = trimmed word := by
  have hfront : ∀ c ∈ left.toList, isBlank c = true := List.all_eq_true.mp hleft
  have hback : ∀ c ∈ right.toList, isBlank c = true := List.all_eq_true.mp hright
  have hstart :
      trimStart (left ++ word ++ right).toList = trimStart (word.toList ++ right.toList) := by
    rw [String.toList_append, String.toList_append, List.append_assoc]
    exact List.dropWhile_append_of_pos hfront
  have htrim : trim (left ++ word ++ right).toList = trim word.toList := by
    rw [trim, trim, hstart, trimStart, trimStart, List.dropWhile_append]
    split
    · rename_i hnone
      rw [List.isEmpty_iff.mp hnone, List.dropWhile_eq_nil_iff.mpr hback]
    · exact trimEnd_append_blank _ hback
  rw [trimmed, trimmed, htrim]

end Text

namespace Decimal

/-- The unsigned word that a run of digits denotes, if it is one that is not too large. -/
def unsigned? (digits : List Char) : Option UInt32 :=
  if digits ≠ [] ∧ digits.all Char.isDigit ∧ value digits < UInt32.size then
    some (UInt32.ofNat (value digits))
  else
    none

theorem toUInt32?_plus (digits : List Char) : toUInt32? ('+' :: digits) = unsigned? digits :=
  rfl

theorem toUInt32?_of_head {text : List Char} (h : text.head? ≠ some '+') :
    toUInt32? text = unsigned? text := by
  cases text with
  | nil => rfl
  | cons c cs =>
      have hplus : c ≠ '+' := fun h' => h (congrArg some h')
      simp [toUInt32?, unsigned?, hplus]

theorem unsigned?_map_toLower (digits : List Char) :
    unsigned? (digits.map Char.toLower) = unsigned? digits := by
  have hall : (digits.map Char.toLower).all Char.isDigit = digits.all Char.isDigit := by
    rw [List.all_map]
    exact congrArg digits.all (funext Text.isDigit_toLower)
  by_cases hdigits : digits.all Char.isDigit = true
  · have hsame : digits.map Char.toLower = digits := by
      rw [List.map_congr_left fun c hc =>
        Text.toLower_of_isDigit (List.all_eq_true.mp hdigits c hc)]
      exact List.map_id' digits
    rw [hsame]
  · rw [unsigned?, unsigned?, hall, if_neg fun h => hdigits h.2.1, if_neg fun h => hdigits h.2.1]

/-- No letter is part of a number, so the case of letters does not matter where one is read. -/
theorem toUInt32?_map_toLower (text : List Char) :
    toUInt32? (text.map Char.toLower) = toUInt32? text := by
  by_cases hplus : text.head? = some '+'
  · obtain ⟨digits, rfl⟩ := List.head?_eq_some_iff.mp hplus
    have hlower : ('+' :: digits).map Char.toLower = '+' :: digits.map Char.toLower := rfl
    rw [hlower, toUInt32?_plus, toUInt32?_plus, unsigned?_map_toLower]
  · have hlower : (text.map Char.toLower).head? ≠ some '+' := by
      rw [List.head?_map]
      intro h
      obtain ⟨c, hc, hmark⟩ := Option.map_eq_some_iff.mp h
      exact hplus (hc.trans (congrArg some ((Text.toLower_eq_iff (by decide) c).mp hmark)))
    rw [toUInt32?_of_head hlower, toUInt32?_of_head hplus, unsigned?_map_toLower]

theorem toUInt32?_of_same {a b : String} (h : Text.sameIgnoringCase a b = true) :
    toUInt32? a.toList = toUInt32? b.toList := by
  rw [← toUInt32?_map_toLower, Text.sameIgnoringCase_iff.mp h, toUInt32?_map_toLower]

/-- Digits are read as their value. -/
theorem toUInt32?_of_digits {digits : List Char} {number : UInt32} (hne : digits ≠ [])
    (hdigits : ∀ c ∈ digits, c.isDigit = true) (hvalue : value digits = number.toNat) :
    toUInt32? digits = some number := by
  have hhead : digits.head? ≠ some '+' := by
    intro hplus
    exact absurd (hdigits _ (List.mem_of_head? hplus)) (by decide)
  rw [toUInt32?_of_head hhead, unsigned?, hvalue,
    if_pos ⟨hne, List.all_eq_true.mpr hdigits, number.toNat_lt_size⟩, UInt32.ofNat_toNat]

theorem value_zeros_append (zeros : Nat) (digits : List Char) :
    value (List.replicate zeros '0' ++ digits) = value digits := by
  induction zeros with
  | zero => rfl
  | succ n ih => exact ih

/-- A number in decimal, with zeros in front. -/
def numeral (zeros : Nat) (number : UInt32) : String :=
  String.ofList (List.replicate zeros '0') ++ number.toNat.repr

theorem toList_numeral (zeros : Nat) (number : UInt32) :
    (numeral zeros number).toList =
      List.replicate zeros '0' ++ Nat.toDigits 10 number.toNat := by
  rw [numeral, String.toList_append, String.toList_ofList, Nat.toList_repr]

theorem isDigit_of_mem_numeral {zeros : Nat} {number : UInt32} :
    ∀ c ∈ (numeral zeros number).toList, c.isDigit = true := by
  intro c hc
  rw [toList_numeral] at hc
  rcases List.mem_append.mp hc with hzero | hdigit
  · rw [List.eq_of_mem_replicate hzero]
    rfl
  · exact Nat.isDigit_of_mem_toDigits (by decide) (by decide) hdigit

/-- Zeros in front of a number do not matter where it is read. -/
theorem toUInt32?_numeral (zeros : Nat) (number : UInt32) :
    toUInt32? (Text.trimmed (numeral zeros number)).toList = some number := by
  have hvisible : ∀ c ∈ (numeral zeros number).toList, Text.isBlank c = false := by
    intro c hc
    exact Script.Grammar.not_isBlank_of_isNameChar
      (Script.Grammar.isNameChar_of_isDigit (isDigit_of_mem_numeral c hc))
  have hne : (numeral zeros number).toList ≠ [] := by
    rw [toList_numeral]
    exact List.append_ne_nil_of_right_ne_nil _ Nat.toDigits_ne_nil
  have hvalue : value (numeral zeros number).toList = number.toNat := by
    rw [toList_numeral, value_zeros_append]
    exact Nat.ofDigitChars_ten_toDigits
  rw [Text.trimmed_of_visible hvisible, toUInt32?_of_digits hne isDigit_of_mem_numeral hvalue]

end Decimal

/-! ## Slugs -/

namespace Level.Kind

/-- That the Kelvin sign is in lower case a `k` matters only for words with a `k`. -/
theorem foldChar_eq_iff {d : Char} (hk : d ≠ 'k') (hascii : d.toNat < 128) (c : Char) :
    Text.foldChar c = d ↔ c.toLower = d := by
  unfold Text.foldChar
  split
  · rename_i hkelvin
    have hsign : d ≠ '\u212a' := by
      rintro rfl
      exact absurd hascii (by decide)
    rw [hkelvin, show '\u212a'.toLower = '\u212a' from rfl]
    exact ⟨fun h => absurd h.symm hk, fun h => absurd h.symm hsign⟩
  · rfl

theorem map_foldChar_eq_iff {word : List Char}
    (hword : (word.all fun d => d != 'k' && d.toNat < 128) = true)
    (text : List Char) : text.map Text.foldChar = word ↔ text.map Char.toLower = word := by
  induction text generalizing word with
  | nil => rfl
  | cons c cs ih =>
      cases word with
      | nil => exact ⟨nofun, nofun⟩
      | cons d ds =>
          rw [List.all_cons, Bool.and_eq_true, Bool.and_eq_true, bne_iff_ne,
            decide_eq_true_iff] at hword
          obtain ⟨⟨hk, hascii⟩, hrest⟩ := hword
          rw [List.map_cons, List.map_cons, List.cons.injEq, List.cons.injEq,
            foldChar_eq_iff hk hascii, ih hrest]

theorem map_toLower_slug (kind : Kind) : kind.slug.toList.map Char.toLower = kind.slug.toList := by
  cases kind <;> rfl

theorem ofExactSlug?_eq_some_iff {word : String} {kind : Kind} :
    ofExactSlug? word = some kind ↔ word = kind.slug := by
  constructor
  · intro h
    have hfound := List.find?_some h
    exact (beq_iff_eq.mp hfound).symm
  · rintro rfl
    exact ofExactSlug?_slug kind

/-- The slugs are looked for just as if case were that of ASCII letters. -/
theorem ofSlug?_eq_some_iff {word : String} {kind : Kind} :
    ofSlug? word = some kind ↔ Text.sameIgnoringCase (Text.trimmed word) kind.slug = true := by
  have hplain : (kind.slug.toList.all fun d => d != 'k' && d.toNat < 128) = true := by
    cases kind <;> rfl
  rw [ofSlug?, ofExactSlug?_eq_some_iff, Text.sameIgnoringCase_iff, map_toLower_slug,
    ← map_foldChar_eq_iff hplain, Text.fold, ← String.toList_inj, String.toList_ofList]

theorem trimmed_slug (kind : Kind) : Text.trimmed kind.slug = kind.slug := by
  cases kind <;> rfl

theorem toUInt32?_slug (kind : Kind) : Decimal.toUInt32? kind.slug.toList = none := by
  cases kind <;> rfl

end Level.Kind

namespace Catalog

variable {α : Type} {c : Catalog α}

/-! ## Levels by number, slug and name -/

/-- The kind of the level that has this slug. -/
def kindOfSlug? (c : Catalog α) (name : String) : Option Level.Kind :=
  (Level.Kind.ofSlug? name).filter fun kind => (c.level? kind).isSome

/-- The kind of the first level that has this name. -/
def kindOfName? (c : Catalog α) (name : String) : Option Level.Kind :=
  (c.levels.find? fun l => Text.sameIgnoringCase l.name name).map Level.kind

theorem kindNamed?_of_number {text : String} {number : UInt32}
    (h : Decimal.toUInt32? (Text.trimmed text).toList = some number) :
    c.kindNamed? text = (c.levelByNumber? number).map Level.kind := by
  unfold kindNamed?
  dsimp only
  rw [h]

theorem kindNamed?_of_word {text : String}
    (h : Decimal.toUInt32? (Text.trimmed text).toList = none) :
    c.kindNamed? text =
      (c.kindOfSlug? (Text.trimmed text)).or (c.kindOfName? (Text.trimmed text)) := by
  unfold kindNamed?
  dsimp only
  rw [h]
  rfl

theorem kindOfSlug?_eq_some_iff {name : String} {kind : Level.Kind} :
    c.kindOfSlug? name = some kind ↔
      Text.sameIgnoringCase (Text.trimmed name) kind.slug = true ∧
        ∃ l ∈ c.levels, l.kind = kind := by
  rw [kindOfSlug?, Option.filter_eq_some_iff, Level.Kind.ofSlug?_eq_some_iff, level?,
    List.find?_isSome]
  simp only [beq_iff_eq]

/-- A text means only levels that the catalog has. -/
theorem mem_of_kindNamed? {text : String} {kind : Level.Kind}
    (h : c.kindNamed? text = some kind) : ∃ l ∈ c.levels, l.kind = kind := by
  have hlisted {p : Level α → Bool} (hkind : (c.levels.find? p).map Level.kind = some kind) :
      ∃ l ∈ c.levels, l.kind = kind := by
    obtain ⟨l, hl, hown⟩ := Option.map_eq_some_iff.mp hkind
    exact ⟨l, List.mem_of_find?_eq_some hl, hown⟩
  cases hread : Decimal.toUInt32? (Text.trimmed text).toList with
  | some number =>
      rw [kindNamed?_of_number hread] at h
      exact hlisted h
  | none =>
      rw [kindNamed?_of_word hread] at h
      rcases Option.or_eq_some_iff.mp h with hslug | ⟨-, hname⟩
      · exact (kindOfSlug?_eq_some_iff.mp hslug).2
      · exact hlisted hname

/-- A text that is the slug of a level means that level. -/
theorem kindNamed?_of_slug {text : String} {l : Level α} (hl : l ∈ c.levels)
    (h : Text.sameIgnoringCase (Text.trimmed text) l.kind.slug = true) :
    c.kindNamed? text = some l.kind := by
  have hword : Decimal.toUInt32? (Text.trimmed text).toList = none := by
    rw [Decimal.toUInt32?_of_same h, l.kind.toUInt32?_slug]
  have hslug := Text.sameIgnoringCase_trimmed l.kind.trimmed_slug h
  rw [kindNamed?_of_word hword, kindOfSlug?_eq_some_iff.mpr ⟨hslug, l, hl, rfl⟩, Option.some_or]

/-- The name of a level has no blanks around it, is no number, and no other level has it in any
case. -/
structure NamedApart (c : Catalog α) (l : Level α) : Prop where
  trimmed : Text.trimmed l.name = l.name
  noNumber : Decimal.toUInt32? l.name.toList = none
  alone : ∀ other ∈ c.levels, Text.sameIgnoringCase other.name l.name = true → other = l

theorem NamedApart.kindOfName? {l : Level α} (h : c.NamedApart l) (hl : l ∈ c.levels)
    {name : String} (hsame : Text.sameIgnoringCase name l.name = true) :
    c.kindOfName? name = some l.kind := by
  have hfound : (c.levels.find? fun l => Text.sameIgnoringCase l.name name).isSome := by
    rw [List.find?_isSome]
    exact ⟨l, hl, (Text.sameIgnoringCase_comm ..).trans hsame⟩
  obtain ⟨found, hfound⟩ := Option.isSome_iff_exists.mp hfound
  have hown := List.find?_some hfound
  rw [Text.sameIgnoringCase_comm, Text.sameIgnoringCase_congr hsame,
    Text.sameIgnoringCase_comm] at hown
  rw [Catalog.kindOfName?, hfound, h.alone found (List.mem_of_find?_eq_some hfound) hown,
    Option.map_some]

variable [Coordinate α]

theorem levelByNumber?_number (h : c.faults = []) {l : Level α} (hl : l ∈ c.levels) :
    c.levelByNumber? l.number = some l := by
  have hfound : (c.levelByNumber? l.number).isSome := by
    rw [levelByNumber?, List.find?_isSome]
    exact ⟨l, hl, beq_self_eq_true _⟩
  obtain ⟨found, hfound⟩ := Option.isSome_iff_exists.mp hfound
  have hown := List.find?_some hfound
  have hnumbers : (c.levels.map Level.number).Nodup := ((faults_eq_nil_iff c).mp h).2.2.2
  rw [hfound, List.inj_on_of_nodup_map hnumbers (List.mem_of_find?_eq_some hfound) hl
    (beq_iff_eq.mp hown)]

/-- A text that is the name of a level means that level just where it is not the slug of another. -/
theorem kindNamed?_of_name (h : c.faults = []) {text : String} {l : Level α} (hl : l ∈ c.levels)
    (hname : c.NamedApart l) (hsame : Text.sameIgnoringCase (Text.trimmed text) l.name = true) :
    c.kindNamed? text = some l.kind ↔
      ∀ other ∈ c.levels, Text.sameIgnoringCase l.name other.kind.slug = true → other = l := by
  have hword : Decimal.toUInt32? (Text.trimmed text).toList = none := by
    rw [Decimal.toUInt32?_of_same hsame, hname.noNumber]
  have htwice := Text.sameIgnoringCase_trimmed hname.trimmed hsame
  have hslugged {kind : Level.Kind} : c.kindOfSlug? (Text.trimmed text) = some kind ↔
      Text.sameIgnoringCase l.name kind.slug = true ∧ ∃ other ∈ c.levels, other.kind = kind := by
    rw [kindOfSlug?_eq_some_iff, Text.sameIgnoringCase_congr htwice]
  rw [kindNamed?_of_word hword, hname.kindOfName? hl hsame]
  constructor
  · intro hmeans other hother hslug
    rw [hslugged.mpr ⟨hslug, other, hother, rfl⟩, Option.some_or] at hmeans
    exact List.inj_on_of_nodup_map (nodup_kinds h) hother hl (Option.some.inj hmeans)
  · intro halone
    cases hcase : c.kindOfSlug? (Text.trimmed text) with
    | none => rfl
    | some kind =>
        obtain ⟨hslug, other, hother, rfl⟩ := hslugged.mp hcase
        rw [halone other hother hslug]
        rfl

end Catalog

/-! ## What the player types -/

variable {α : Type}

/-- A kind of the play order is selected without fail. -/
theorem Campaign.OnCatalog.exists_select {c : Campaign α} (h : c.OnCatalog) {kind : Level.Kind}
    (hkind : kind ∈ c.order) :
    ∃ next, c.select kind = (.ok (), next) ∧ next.currentKind = kind := by
  cases hindex : c.order.idxOf? kind with
  | none => exact absurd hkind (List.idxOf?_eq_none_iff.mp hindex)
  | some index =>
      obtain ⟨hlt, hown, -⟩ := List.idxOf?_eq_some_iff.mp hindex
      have hplace : c.order[index]? = some kind :=
        (List.getElem?_eq_getElem hlt).trans (congrArg some hown)
      obtain ⟨stage, -, hstage, henter⟩ := h.enter hplace
      refine ⟨c.entered index stage, ?_, hstage⟩
      rw [Campaign.select, hindex]
      exact henter

variable [Coordinate α]

namespace Catalog

/-- Over a catalog without faults, a level is found by what the player types. Whatever kind a text
means, there is a level of that kind, and wherever the player is in the campaign, to ask for it with
that text leads to it. Every level is found, between blanks, by its number, with or without zeros in
front, and by its slug in any case. By a name that is apart from the names of others and from numbers
it is found in any case, just where the name is not the slug of another level. -/
theorem levels_found_as_typed {c : Catalog α} (h : c.faults = []) :
    (∀ typed kind, c.kindNamed? typed = some kind →
      (∃ l ∈ c.levels, l.kind = kind) ∧
        ∀ {settings : Settings} {first : Campaign α}, Campaign.start c settings = .ok first →
          ∀ (ops : List Campaign.Operation) (p : Prompt α) (now : Duration),
            p.campaign = (first.performAll ops).2 →
              ∃ next, p.campaign.select kind = (.ok (), next) ∧ next.currentKind = kind ∧
                p.selectLevel now typed = { p with campaign := next }.enterLevel now) ∧
      ∀ l ∈ c.levels, ∀ left right, Text.isBlankText left = true → Text.isBlankText right = true →
        (∀ zeros, c.kindNamed? (left ++ Decimal.numeral zeros l.number ++ right) = some l.kind) ∧
          (∀ word, Text.sameIgnoringCase word l.kind.slug = true →
            c.kindNamed? (left ++ word ++ right) = some l.kind) ∧
          (c.NamedApart l → ∀ word, Text.sameIgnoringCase word l.name = true →
            (c.kindNamed? (left ++ word ++ right) = some l.kind ↔
              ∀ other ∈ c.levels,
                Text.sameIgnoringCase l.name other.kind.slug = true → other = l)) := by
  constructor
  · intro typed kind hmeans
    have hlisted := mem_of_kindNamed? hmeans
    refine ⟨hlisted, ?_⟩
    intro settings first hstart ops p now hcampaign
    have hplaying := (Campaign.playing_start hstart).history ops
    have hkind : kind ∈ (first.performAll ops).2.order := by
      rw [hplaying.onCatalog.mem_order_iff, hplaying.catalog_eq]
      exact hlisted
    obtain ⟨next, hselect, hcurrent⟩ := hplaying.onCatalog.exists_select hkind
    rw [← hcampaign] at hselect
    refine ⟨next, hselect, hcurrent, ?_⟩
    have hcatalog : p.campaign.catalog = c := by
      rw [hcampaign, hplaying.catalog_eq]
    unfold Prompt.selectLevel
    rw [hcatalog, hmeans]
    dsimp only
    rw [hselect]
  · intro l hl left right hleft hright
    have hcut := Text.trimmed_between hleft hright
    refine ⟨?_, ?_, ?_⟩
    · intro zeros
      have hnumber : Decimal.toUInt32?
          (Text.trimmed (left ++ Decimal.numeral zeros l.number ++ right)).toList = some l.number := by
        rw [hcut, Decimal.toUInt32?_numeral]
      rw [kindNamed?_of_number hnumber, levelByNumber?_number h hl, Option.map_some]
    · intro word hsame
      apply kindNamed?_of_slug hl
      rw [hcut]
      exact Text.sameIgnoringCase_trimmed l.kind.trimmed_slug hsame
    · intro hname word hsame
      apply kindNamed?_of_name h hl hname
      rw [hcut]
      exact Text.sameIgnoringCase_trimmed hname.trimmed hsame

open Exact

/-- The first level with the slug of the second one for its name. -/
def misnamedLevel : Level ℚ :=
  { Builtin.commandsLevel with name := "Loops" }

def misnamed : Catalog ℚ :=
  ⟨.standard, [misnamedLevel, Builtin.loopsLevel]⟩

/-- The level that is named like the slug of the other one is found by its number and its slug, but
not by its name. The other is found by its name, and the player who types that is led to it. -/
theorem levels_found_as_typed_misnamed :
    misnamed.faults = [] ∧ misnamed.NamedApart misnamedLevel ∧
      misnamed.kindNamed? " \t001" = some .commands ∧
      misnamed.kindNamed? "COMMANDS\n" = some .commands ∧
      misnamed.kindNamed? "loops" ≠ some .commands ∧
      misnamed.NamedApart Builtin.loopsLevel ∧
      misnamed.kindNamed? " learn LOOPS" = some .loops ∧
      ∃ first next, Campaign.start misnamed .standard = .ok first ∧
        let p := (Prompt.start first .zero).2
        p.campaign.select .loops = (.ok (), next) ∧ next.currentKind = .loops ∧
          p.selectLevel .zero " learn LOOPS" = { p with campaign := next }.enterLevel .zero := by
  have hfaults : misnamed.faults = [] := by decide +kernel
  have hlevels : misnamed.levels ≠ [] := List.cons_ne_nil _ _
  have hfirst : misnamedLevel ∈ misnamed.levels := List.mem_cons_self
  have hsecond : Builtin.loopsLevel ∈ misnamed.levels := List.mem_cons_of_mem _ List.mem_cons_self
  have hfirstApart : misnamed.NamedApart misnamedLevel := by
    refine ⟨rfl, rfl, ?_⟩
    intro other hother hsame
    rcases List.mem_pair.mp hother with rfl | rfl
    · rfl
    · cases hsame
  have hsecondApart : misnamed.NamedApart Builtin.loopsLevel := by
    refine ⟨rfl, rfl, ?_⟩
    intro other hother hsame
    rcases List.mem_pair.mp hother with rfl | rfl
    · cases hsame
    · rfl
  obtain ⟨hsound, hcomplete⟩ := levels_found_as_typed hfaults
  obtain ⟨hnumber, -, -⟩ := hcomplete _ hfirst " \t" "" rfl rfl
  obtain ⟨-, hslug, -⟩ := hcomplete _ hfirst "" "\n" rfl rfl
  obtain ⟨-, -, hname⟩ := hcomplete _ hfirst "" "" rfl rfl
  obtain ⟨-, -, hother⟩ := hcomplete _ hsecond " " "" rfl rfl
  have hloops : misnamed.kindNamed? " learn LOOPS" = some .loops := by
    refine (hother hsecondApart "learn LOOPS" rfl).mpr ?_
    intro other hlisted hsame
    rcases List.mem_pair.mp hlisted with rfl | rfl
    · cases hsame
    · rfl
  obtain ⟨first, hstart⟩ := Campaign.exists_start .standard hlevels
  obtain ⟨-, hleads⟩ := hsound _ _ hloops
  obtain ⟨next, hselect⟩ :=
    hleads hstart [.play .subscribe] (Prompt.start first .zero).2 .zero rfl
  refine ⟨hfaults, hfirstApart, hnumber 2, hslug "COMMANDS" rfl, ?_, hsecondApart, hloops, first,
    next, hstart, hselect⟩
  intro hmeans
  have hsame := (hname hfirstApart "loops" rfl).mp hmeans _ hsecond rfl
  cases congrArg Level.kind hsame

end Catalog

end Playscript
