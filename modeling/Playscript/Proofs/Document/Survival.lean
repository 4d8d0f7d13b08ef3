import Playscript.Document.Value
import Playscript.Proofs.Document.Double
/-! What survives being written as a JSON value and read back. It is shown once for each kind of
value and for each way of putting values together; records are put together field by field. -/
namespace Playscript.Document

/-- A value as JSON has it: fractions are finite, and a whole number is a word of 64 bits, with a
sign or without. -/
inductive Value.IsJson : Value → Prop
  | null : IsJson .null
  | bool (b : Bool) : IsJson (.bool b)
  | int {n : Int} : -2 ^ 63 ≤ n → n < 2 ^ 64 → IsJson (.int n)
  | float {x : Float} : x.isFinite = true → IsJson (.float x)
  | text (s : String) : IsJson (.text s)
  | list {items : List Value} : (∀ v ∈ items, IsJson v) → IsJson (.list items)
  | record {fields : List (String × Value)} : (∀ field ∈ fields, IsJson field.2) →
      IsJson (.record fields)

/-- What is fit to be written is written as JSON and read back as it was, and whatever is read from
JSON is fit to be written. -/
structure Survives {α : Type} (Fit : α → Prop) (read : Value → Option α) (write : α → Value) :
    Prop where
  json : ∀ a, Fit a → (write a).IsJson
  back : ∀ a, Fit a → read (write a) = some a
  fit : ∀ v, v.IsJson → ∀ a ∈ read v, Fit a

variable {α : Type} {Fit : α → Prop} {read : Value → Option α} {write : α → Value}

/-- To read, write and read again is to read. -/
theorem Survives.again (h : Survives Fit read write) {v : Value} (hv : v.IsJson) {a : α}
    (ha : read v = some a) : read (write a) = some a :=
  h.back a (h.fit v hv a ha)

/-! ## Single values -/

/-- A double is written as the number that it is. -/
theorem survives_float : Survives (fun x => x.isFinite = true) Value.float? Value.ofFloat where
  json := by
    intro x hx
    rw [Value.ofFloat, if_pos hx]
    exact .float hx
  back := by
    intro x hx
    rw [Value.ofFloat, if_pos hx]
    rfl
  fit := by
    intro v hv x hx
    cases hv with
    | float hfinite =>
        cases hx
        exact hfinite
    | int hmin hmax =>
        cases hx
        exact Double.isFinite_ofInt hmin hmax
    | null | bool | text | list | record => cases hx

theorem survives_text : Survives (fun _ => True) Value.text? Value.text :=
  ⟨fun s _ => .text s, fun _ _ => rfl, fun _ _ _ _ => trivial⟩

theorem survives_uint32 : Survives (fun _ => True) Value.uint32? fun n => .int n.toNat where
  json := by
    intro n _
    have hlt := n.toNat_lt
    exact .int (by omega) (by omega)
  back := by
    intro n _
    have hlt : (n.toNat : Int) < UInt32.size := Int.ofNat_lt.mpr n.toNat_lt
    have hpos : (0 : Int) ≤ n.toNat := Int.natCast_nonneg _
    simp only [Value.uint32?, Value.int?]
    rw [if_pos ⟨hpos, hlt⟩, Int.toNat_natCast, UInt32.ofNat_toNat]
  fit := fun _ _ _ _ => trivial

theorem survives_uint64 : Survives (fun _ => True) Value.uint64? fun n => .int n.toNat where
  json := by
    intro n _
    have hlt := n.toNat_lt
    exact .int (by omega) (by omega)
  back := by
    intro n _
    have hlt : (n.toNat : Int) < UInt64.size := Int.ofNat_lt.mpr n.toNat_lt
    have hpos : (0 : Int) ≤ n.toNat := Int.natCast_nonneg _
    simp only [Value.uint64?, Value.int?]
    rw [if_pos ⟨hpos, hlt⟩, Int.toNat_natCast, UInt64.ofNat_toNat]
  fit := fun _ _ _ _ => trivial

theorem survives_int64 : Survives (fun _ => True) Value.int64? fun n => .int n.toInt where
  json := by
    intro n _
    have hmin := n.le_toInt
    have hmax := n.toInt_lt
    exact .int hmin (by omega)
  back := by
    intro n _
    have hmin : Int64.minValue.toInt ≤ n.toInt := n.minValue_le_toInt
    have hmax : n.toInt ≤ Int64.maxValue.toInt := n.toInt_le
    simp only [Value.int64?, Value.int?]
    rw [if_pos ⟨hmin, hmax⟩, Int64.ofInt_toInt]
  fit := fun _ _ _ _ => trivial

/-- A choice among words is written as its word. -/
theorem survives_word {name : α → String} {named : String → Option α}
    (h : ∀ a, named (name a) = some a) (f : Format) :
    Survives (fun _ => True) (fun v => (f.word? v).bind named) fun a => .text (name a) :=
  ⟨fun a _ => .text (name a), fun a _ => h a, fun _ _ _ _ => trivial⟩

/-! ## Lists and options -/

theorem Survives.list (h : Survives Fit read write) :
    Survives (fun l => ∀ a ∈ l, Fit a) (Value.list? read) fun l => .list (l.map write) where
  json := by
    intro l hl
    refine .list ?_
    intro v hv
    obtain ⟨a, ha, rfl⟩ := List.mem_map.mp hv
    exact h.json a (hl a ha)
  back := by
    intro l hl
    show (l.map write).mapM read = some l
    induction l with
    | nil => rfl
    | cons a rest ih =>
        obtain ⟨ha, hrest⟩ := List.forall_mem_cons.mp hl
        rw [List.map_cons, List.mapM_cons, h.back a ha, ih hrest]
        rfl
  fit := by
    intro v hv l hl
    cases hv with
    | list hitems =>
        rename_i items
        have hread : items.mapM read = some l := hl
        clear hl
        induction items generalizing l with
        | nil =>
            cases hread
            exact List.forall_mem_nil _
        | cons item items ih =>
            obtain ⟨hitem, hrest⟩ := List.forall_mem_cons.mp hitems
            rw [List.mapM_cons] at hread
            obtain ⟨a, ha, hread⟩ := Option.bind_eq_some_iff.mp hread
            obtain ⟨as, has, hread⟩ := Option.bind_eq_some_iff.mp hread
            cases hread
            exact List.forall_mem_cons.mpr ⟨h.fit item hitem a ha, ih as hrest has⟩
    | null | bool | int | float | text | record => cases hl

theorem fit_none (Fit : α → Prop) : ∀ a ∈ (none : Option α), Fit a :=
  nofun

theorem Survives.option (h : Survives Fit read write) (hnull : ∀ a, write a ≠ .null) :
    Survives (fun o => ∀ a ∈ o, Fit a) (Value.option? read) (Value.ofOption write) where
  json := by
    intro o ho
    cases o with
    | none => exact .null
    | some a => exact h.json a (ho a rfl)
  back := by
    intro o ho
    cases o with
    | none => rfl
    | some a =>
        have hread : Value.option? read (write a) = (read (write a)).map some := by
          unfold Value.option?
          split
          · rename_i hwrite
            exact absurd hwrite (hnull a)
          · rfl
        rw [Value.ofOption, hread, h.back a (ho a rfl), Option.map_some]
  fit := by
    intro v hv o ho a ha
    cases ha
    unfold Value.option? at ho
    split at ho
    · cases ho
    · obtain ⟨own, hown, hsame⟩ := Option.map_eq_some_iff.mp ho
      cases hsame
      exact h.fit v hv _ hown

/-! ## Records -/

/-- The fields of a record that JSON can hold. -/
def GivesJson (get : String → Option Value) : Prop :=
  ∀ name, ∀ v ∈ get name, v.IsJson

theorem mem_of_lookup {entries : List (String × Value)} {name : String} {v : Value}
    (h : entries.lookup name = some v) : ∃ field ∈ entries, field.2 = v := by
  induction entries with
  | nil => cases h
  | cons field rest ih =>
      rw [List.lookup_cons] at h
      cases hname : name == field.1 with
      | true =>
          rw [hname] at h
          exact ⟨field, List.mem_cons_self, Option.some.inj h⟩
      | false =>
          rw [hname] at h
          obtain ⟨own, hown, hsame⟩ := ih h
          exact ⟨own, List.mem_cons_of_mem field hown, hsame⟩

theorem givesJson_lookup {entries : List (String × Value)}
    (h : ∀ field ∈ entries, field.2.IsJson) : GivesJson fun name => entries.lookup name := by
  intro name v hv
  obtain ⟨field, hfield, rfl⟩ := mem_of_lookup hv
  exact h field hfield

theorem givesJson_zip {items : List Value} (h : ∀ v ∈ items, v.IsJson) (names : List String) :
    GivesJson fun name => (names.zip items).lookup name := by
  refine givesJson_lookup ?_
  intro field hfield
  exact h _ (List.of_mem_zip hfield).2

theorem givesJson_fields (f : Format) (names : List String) {v : Value} (hv : v.IsJson) :
    ∀ get ∈ f.fields names v, GivesJson get := by
  intro get hget
  cases hv with
  | record hfields =>
      cases hget
      exact givesJson_lookup hfields
  | list hitems =>
      simp only [Format.fields] at hget
      split at hget
      · cases hget
        exact givesJson_zip hitems names
      · cases hget
  | null | bool | int | float | text => cases hget

theorem givesJson_form (tag : String) (names : String → List String) {v : Value} (hv : v.IsJson) :
    ∀ form ∈ Format.form? tag names v, GivesJson form.2 := by
  intro form hform
  cases hv with
  | record hfields =>
      obtain ⟨first, -, hform⟩ := Option.bind_eq_some_iff.mp hform
      obtain ⟨word, -, hform⟩ := Option.bind_eq_some_iff.mp hform
      cases hform
      intro name v hv
      dsimp only at hv
      split at hv
      · cases hv
      · exact givesJson_lookup hfields name v hv
  | list hitems =>
      rename_i items
      cases items with
      | nil => cases hform
      | cons first rest =>
          obtain ⟨word, -, hform⟩ := Option.bind_eq_some_iff.mp hform
          obtain ⟨get, hget, hform⟩ := Option.bind_eq_some_iff.mp hform
          cases hform
          have hrest : Value.IsJson (.list rest) :=
            .list fun v hv => hitems v (List.mem_cons_of_mem first hv)
          exact givesJson_fields _ _ hrest get hget
  | null | bool | int | float | text => cases hform

section
variable {β : Type} {o : Option α} {next : α → Option β}

theorem bind_back {a : α} {b : β} (h : o = some a) (hnext : next a = some b) :
    (o >>= next) = some b := by
  rw [h]
  exact hnext

theorem bind_fit {P : α → Prop} {Q : β → Prop} (h : ∀ a ∈ o, P a)
    (hnext : ∀ a, P a → ∀ b ∈ next a, Q b) : ∀ b ∈ o >>= next, Q b := by
  intro b hb
  obtain ⟨a, ha, hsame⟩ := Option.bind_eq_some_iff.mp hb
  exact hnext a (h a ha) b hsame

theorem pure_fit {P : α → Prop} {a : α} (h : P a) : ∀ b ∈ (pure a : Option α), P b := by
  intro b hb
  cases hb
  exact h

end

section
variable {get : String → Option Value} {name : String}

theorem Survives.required_back (h : Survives Fit read write) {a : α} (ha : Fit a)
    (hget : get name = some (write a)) : required get name read = some a := by
  rw [Document.required, hget]
  exact h.back a ha

theorem Survives.defaulted_back (h : Survives Fit read write) {default a : α} (ha : Fit a)
    (hget : get name = some (write a)) : defaulted get name default read = some a := by
  rw [Document.defaulted, hget]
  exact h.back a ha

theorem Survives.required (h : Survives Fit read write) (hget : GivesJson get) :
    ∀ a ∈ required get name read, Fit a := by
  intro a ha
  obtain ⟨v, hv, hread⟩ := Option.bind_eq_some_iff.mp ha
  exact h.fit v (hget name v hv) a hread

theorem Survives.defaulted (h : Survives Fit read write) (hget : GivesJson get) {default : α}
    (hdefault : Fit default) : ∀ a ∈ defaulted get name default read, Fit a := by
  intro a ha
  unfold Document.defaulted at ha
  split at ha
  · cases ha
    exact hdefault
  · rename_i v hv
    exact h.fit v (hget name v hv) a ha

end

end Playscript.Document
