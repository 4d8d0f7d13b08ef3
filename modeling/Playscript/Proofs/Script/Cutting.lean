import Playscript.Proofs.Script.Token
import Playscript.Script.Segment
/-! How a text is cut: where the first segment ends, and what is cut off after it. -/
namespace Playscript

theorem Text.trim_padded {c d : Char} (middle : List Char) (hc : isBlank c = false)
    (hd : isBlank d = false) :
    trim ((c :: (middle ++ [d])) ++ [' ']) = c :: (middle ++ [d]) := by
  have hspace : isBlank ' ' = true := rfl
  simp [trim, trimStart, trimEnd, hc, hd, hspace]

theorem Text.trimStart_of_visible {c : Char} (hc : isBlank c = false) (cs : List Char) :
    trimStart (c :: cs) = c :: cs := by
  rw [trimStart, List.dropWhile_cons, hc]
  rfl

theorem Text.exists_blank_start {text rest : List Char} (h : trimStart text = rest) :
    ∃ blanks, (∀ c ∈ blanks, isBlank c = true) ∧ text = blanks ++ rest := by
  refine ⟨text.takeWhile isBlank, fun c hc => List.mem_takeWhile_imp hc, ?_⟩
  rw [← h, trimStart, List.takeWhile_append_dropWhile]

theorem Text.exists_blank_end (text : List Char) :
    ∃ blanks, (∀ c ∈ blanks, isBlank c = true) ∧ text = trimEnd text ++ blanks := by
  refine ⟨(text.reverse.takeWhile isBlank).reverse, ?_, ?_⟩
  · intro c hc
    exact List.mem_takeWhile_imp (List.mem_reverse.mp hc)
  · rw [trimEnd, ← List.reverse_append, List.takeWhile_append_dropWhile, List.reverse_reverse]

theorem Text.trimEnd_append_blank (text : List Char) {blanks : List Char}
    (h : ∀ c ∈ blanks, isBlank c = true) : trimEnd (text ++ blanks) = trimEnd text := by
  have hreverse : ∀ c ∈ blanks.reverse, isBlank c = true := fun c hc =>
    h c (List.mem_reverse.mp hc)
  rw [trimEnd, trimEnd, List.reverse_append, List.dropWhile_append_of_pos hreverse]

namespace Script.Segment

/-! ## Keywords -/

/-- A text that begins with a name begins with a keyword only if the name is the keyword. -/
theorem eq_word_of_startsWith {keyword : Keyword} {name suffix : List Char} {c : Char}
    (hname : Grammar.IsWord name) (hc : Grammar.isNameChar c = false)
    (h : startsWith keyword (name ++ c :: suffix) = true) : name = keyword.word := by
  have hword : keyword.word.all Grammar.isNameChar = true := by
    cases keyword <;> rfl
  unfold startsWith at h
  cases hread : keyword.word.isPrefixOf? (name ++ c :: suffix) with
  | none => simp [hread] at h
  | some rest =>
      have hrest : rest.head?.any Grammar.isNameChar = false := by
        simp only [hread, Bool.not_eq_true'] at h
        exact h
      have hsplit : keyword.word ++ rest = name ++ c :: suffix :=
        List.append_eq_of_isPrefixOf?_eq_some hread
      rcases List.append_eq_append_iff.mp hsplit with ⟨more, hmore, hr⟩ | ⟨more, hmore, hr⟩
      · -- the name goes on after the keyword
        cases more with
        | nil => simpa using hmore
        | cons d ds =>
            have hd : Grammar.isNameChar d = true := hname.chars d (by simp [hmore])
            simp [hr, hd] at hrest
      · -- the keyword goes on after the name
        cases more with
        | nil => simpa using hmore.symm
        | cons d ds =>
            have hd : Grammar.isNameChar d = true := List.all_eq_true.mp hword d (by simp [hmore])
            simp only [List.cons_append, List.cons.injEq] at hr
            rw [← hr.1, hc] at hd
            cases hd

/-- Only the name `for` is taken for the beginning of a loop. -/
theorem eq_for_of_keyword? {name suffix : List Char} {c : Char} (hname : Grammar.IsWord name)
    (hc : Grammar.isNameChar c = false) (h : keyword? (name ++ c :: suffix) = some .forWord) :
    name = ['f', 'o', 'r'] := by
  unfold keyword? at h
  split at h
  · cases h
  · split at h
    · rename_i hstart
      exact eq_word_of_startsWith hname hc hstart
    · cases h

theorem isWordChar_of_mem_word {keyword : Keyword} : ∀ c ∈ keyword.word, isWordChar c = true :=
  List.all_eq_true.mp (by cases keyword <;> rfl)

theorem isPrefixOf?_word {word : List Char} (hword : ∀ d ∈ word, isWordChar d = true)
    (front : List Char) {rest : List Char} (hrest : rest.head?.any isWordChar = false) :
    (word.isPrefixOf? (front ++ rest)).map (fun after => after.head?.any isWordChar) =
      (word.isPrefixOf? front).map fun after => after.head?.any isWordChar := by
  induction word generalizing front with
  | nil =>
      cases front with
      | nil => exact congrArg some hrest
      | cons => rfl
  | cons d ds ih =>
      obtain ⟨hd, hds⟩ := List.forall_mem_cons.mp hword
      cases front with
      | nil =>
          cases rest with
          | nil => rfl
          | cons c cs =>
              have hne : d ≠ c := by
                rintro rfl
                exact absurd hd (Bool.eq_false_iff.mp hrest)
              simp [List.isPrefixOf?, hne]
      | cons e es =>
          simp only [List.cons_append, List.isPrefixOf?]
          split
          · exact ih hds es
          · rfl

theorem startsWith_eq (keyword : Keyword) (text : List Char) : startsWith keyword text =
    ((keyword.word.isPrefixOf? text).map fun after => after.head?.any isWordChar).elim
      false not := by
  unfold startsWith
  split <;> rename_i hread <;> rw [hread] <;> rfl

/-- Whether a text begins with a keyword is settled where its first word ends. -/
theorem keyword?_append (front : List Char) {rest : List Char}
    (hrest : rest.head?.any isWordChar = false) : keyword? (front ++ rest) = keyword? front := by
  have hstarts (keyword : Keyword) :
      startsWith keyword (front ++ rest) = startsWith keyword front := by
    rw [startsWith_eq, startsWith_eq, isPrefixOf?_word isWordChar_of_mem_word front hrest]
  rw [keyword?, keyword?, hstarts .ifWord, hstarts .forWord]

theorem keyword?_trimEnd (line : List Char) : keyword? (Text.trimEnd line) = keyword? line := by
  obtain ⟨blanks, hblanks, hline⟩ := Text.exists_blank_end line
  have hhead : blanks.head?.any isWordChar = false := by
    cases blanks with
    | nil => rfl
    | cons c cs =>
        have hc : Text.isBlank c = true := hblanks c List.mem_cons_self
        apply Bool.eq_false_iff.mpr
        intro hword
        exact Bool.false_ne_true ((Grammar.not_isBlank_of_isNameChar hword).symm.trans hc)
  rw [← keyword?_append (Text.trimEnd line) hhead, ← hline]

/-! ## Simple pieces -/

theorem takeWhile_append_of_not_mem {c : Char} {front : List Char} (h : c ∉ front)
    (rest : List Char) :
    (front ++ rest).takeWhile (· != c) = front ++ rest.takeWhile (· != c) :=
  List.takeWhile_append_of_pos fun d hd => by simpa using ne_of_mem_of_not_mem hd h

theorem takeWhile_ne_append {c : Char} {front : List Char} (h : c ∉ front) (rest : List Char) :
    (front ++ c :: rest).takeWhile (· != c) = front := by
  simp [takeWhile_append_of_not_mem h]

/-- A text begins with a line without semicolons, which a semicolon or a line feed ends, or it is
such a line. -/
@[elab_as_elim]
theorem piece_cases {P : List Char → Prop}
    (semicolon : ∀ line rest, ';' ∉ line → '\n' ∉ line → P (line ++ ';' :: rest))
    (feed : ∀ line rest, ';' ∉ line → '\n' ∉ line → P (line ++ '\n' :: rest))
    (last : ∀ line, ';' ∉ line → '\n' ∉ line → P line) (text : List Char) : P text := by
  have hline : ∀ c ∈ text.takeWhile (fun c => c != ';' && c != '\n'),
      (c != ';' && c != '\n') = true := fun c hc =>
    List.mem_takeWhile_imp (p := fun c => c != ';' && c != '\n') hc
  rw [← List.takeWhile_append_dropWhile (p := fun c => c != ';' && c != '\n') (l := text)]
  generalize text.takeWhile (fun c => c != ';' && c != '\n') = line at hline
  have hsemicolon : ';' ∉ line := fun hc => absurd (hline _ hc) (by decide)
  have hfeed : '\n' ∉ line := fun hc => absurd (hline _ hc) (by decide)
  cases hrest : text.dropWhile fun c => c != ';' && c != '\n' with
  | nil =>
      rw [List.append_nil]
      exact last line hsemicolon hfeed
  | cons c rest =>
      have hends : (c != ';' && c != '\n') = false := by
        simpa [hrest] using List.head_dropWhile_not (fun c => c != ';' && c != '\n') (l := text)
      rcases Bool.and_eq_false_iff.mp hends with hc | hc
      · obtain rfl : c = ';' := by simpa using hc
        exact semicolon line rest hsemicolon hfeed
      · obtain rfl : c = '\n' := by simpa using hc
        exact feed line rest hsemicolon hfeed

section
variable {line : List Char} (hsemicolon : ';' ∉ line) (hfeed : '\n' ∉ line)
include hsemicolon hfeed

theorem takeWhile_line (rest : List Char) :
    (line ++ rest).takeWhile (fun c => c != ';' && c != '\n') =
      line ++ rest.takeWhile fun c => c != ';' && c != '\n' :=
  List.takeWhile_append_of_pos fun c hc => by
    simp [ne_of_mem_of_not_mem hc hsemicolon, ne_of_mem_of_not_mem hc hfeed]

theorem simplePiece_append (suffix : List Char) (offset : Nat) :
    simplePiece (line ++ ';' :: suffix) offset = (.simple (line ++ [';']) offset, suffix) := by
  simp [simplePiece, takeWhile_line hsemicolon hfeed]

theorem simplePiece_feed (suffix : List Char) (offset : Nat) :
    simplePiece (line ++ '\n' :: suffix) offset =
      (.simple (Text.trimEnd line) offset, '\n' :: suffix) := by
  simp [simplePiece, takeWhile_line hsemicolon hfeed]

theorem simplePiece_last (offset : Nat) :
    simplePiece line offset = (.simple (Text.trimEnd line) offset, []) := by
  have hall : line.takeWhile (fun c => c != ';' && c != '\n') = line := by
    simpa using takeWhile_line hsemicolon hfeed []
  simp [simplePiece, hall]

end

/-- Where no brace follows, even a keyword begins a simple piece. -/
theorem first_of_no_brace {text : List Char} (h : '\x7b' ∉ text) (offset : Nat) :
    first text offset = simplePiece text offset := by
  have hall : text.takeWhile (· != '\x7b') = text := by
    simpa using takeWhile_append_of_not_mem h []
  unfold first
  split
  · rfl
  · simp [hall]

/-- A piece that a semicolon ends. -/
theorem eq_append_of_simplePiece {text piece rest : List Char} {offset place : Nat}
    (h : simplePiece text offset = (.simple piece place, rest)) (hmem : ';' ∈ piece) :
    ∃ line, piece = line ++ [';'] ∧ ';' ∉ line ∧ '\n' ∉ line ∧ text = piece ++ rest ∧
      place = offset := by
  -- a piece that ends with its line has no semicolon
  have htrim {line : List Char} (hsemicolon : ';' ∉ line) : ';' ∉ Text.trimEnd line := by
    intro hmem
    obtain ⟨blanks, -, hline⟩ := Text.exists_blank_end line
    exact hsemicolon (hline ▸ List.mem_append_left blanks hmem)
  induction text using piece_cases with
  | semicolon line rest hsemicolon hfeed =>
      rw [simplePiece_append hsemicolon hfeed] at h
      cases h
      exact ⟨line, rfl, hsemicolon, hfeed, by simp, rfl⟩
  | feed line rest hsemicolon hfeed =>
      rw [simplePiece_feed hsemicolon hfeed] at h
      cases h
      exact absurd hmem (htrim hsemicolon)
  | last line hsemicolon hfeed =>
      rw [simplePiece_last hsemicolon hfeed] at h
      cases h
      exact absurd hmem (htrim hsemicolon)

theorem keyword?_simplePiece (text : List Char) (offset : Nat) :
    keyword? (simplePiece text offset).1.text = keyword? text := by
  induction text using piece_cases with
  | semicolon line rest hsemicolon hfeed =>
      rw [simplePiece_append hsemicolon hfeed, keyword?_append line rfl]
      exact keyword?_append line rfl
  | feed line rest hsemicolon hfeed =>
      rw [simplePiece_feed hsemicolon hfeed, keyword?_append line rfl]
      exact keyword?_trimEnd line
  | last line hsemicolon hfeed =>
      rw [simplePiece_last hsemicolon hfeed]
      exact keyword?_trimEnd line

theorem simplePiece_suffix (text : List Char) (offset : Nat) :
    (simplePiece text offset).2 <:+ text := by
  induction text using piece_cases with
  | semicolon line rest hsemicolon hfeed =>
      rw [simplePiece_append hsemicolon hfeed]
      exact ⟨line ++ [';'], (List.append_cons line ';' rest).symm⟩
  | feed line rest hsemicolon hfeed =>
      rw [simplePiece_feed hsemicolon hfeed]
      apply List.suffix_append
  | last line hsemicolon hfeed =>
      rw [simplePiece_last hsemicolon hfeed]
      apply List.nil_suffix

/-- Where no header is possible, even a keyword begins a simple piece. -/
theorem first_of_no_header {text : List Char}
    (h : ∀ keyword, keyword? text = some keyword →
      isPlausible keyword (text.takeWhile (· != '\x7b')) = false) (offset : Nat) :
    first text offset = simplePiece text offset := by
  unfold first
  split
  · rfl
  · rename_i keyword hfound
    dsimp only
    split
    · rfl
    · rw [h keyword hfound, if_neg Bool.false_ne_true]

/-- A semicolon before the next brace tells a simple piece from the header of a conditional. -/
theorem first_of_not_for {piece suffix : List Char} (hpiece : '\x7b' ∉ piece)
    (hkeyword : keyword? (piece ++ ';' :: suffix) ≠ some .forWord) (offset : Nat) :
    first (piece ++ ';' :: suffix) offset = simplePiece (piece ++ ';' :: suffix) offset := by
  refine first_of_no_header ?_ offset
  intro keyword hfound
  cases keyword with
  | forWord => exact absurd hfound hkeyword
  | ifWord =>
      rw [takeWhile_append_of_not_mem hpiece]
      simp [isPlausible, List.count_append]

/-! ## Blocks -/

theorem closeBody?_append {body : List Char} (hopen : '\x7b' ∉ body) (hclose : '\x7d' ∉ body)
    (suffix : List Char) : closeBody? 0 (body ++ '\x7d' :: suffix) = some (body, suffix) := by
  induction body with
  | nil => simp [closeBody?]
  | cons c cs ih =>
      simp only [List.mem_cons, not_or] at hopen hclose
      simp [closeBody?, Ne.symm hopen.1, Ne.symm hclose.1, ih hopen.2 hclose.2]

/-- The body of a block ends at its brace, whatever stands behind. -/
theorem eq_append_of_closeBody? {depth : Nat} {text body rest : List Char}
    (h : closeBody? depth text = some (body, rest)) :
    text = body ++ '\x7d' :: rest ∧
      ∀ suffix, closeBody? depth (body ++ '\x7d' :: suffix) = some (body, suffix) := by
  induction text generalizing depth body rest with
  | nil => cases h
  | cons c cs ih =>
      simp only [closeBody?] at h
      split at h
      · rename_i hc
        subst hc
        cases depth with
        | zero =>
            cases h
            exact ⟨rfl, fun _ => rfl⟩
        | succ depth =>
            obtain ⟨⟨inner, after⟩, hinner, heq⟩ := Option.map_eq_some_iff.mp h
            cases heq
            obtain ⟨rfl, hclose⟩ := ih hinner
            refine ⟨rfl, ?_⟩
            intro suffix
            simp only [List.cons_append, closeBody?, if_pos, hclose suffix, Option.map_some]
      · rename_i hc
        obtain ⟨⟨inner, after⟩, hinner, heq⟩ := Option.map_eq_some_iff.mp h
        cases heq
        obtain ⟨rfl, hclose⟩ := ih hinner
        refine ⟨rfl, ?_⟩
        intro suffix
        simp only [List.cons_append, closeBody?, if_neg hc, hclose suffix, Option.map_some]

/-- A header that is possible begins a block, which may never be closed. -/
theorem first_of_header {keyword : Keyword} {header inside : List Char} (hheader : '\x7b' ∉ header)
    (hkeyword : keyword? (header ++ '\x7b' :: inside) = some keyword)
    (haccepted : isPlausible keyword header = true) (offset : Nat) :
    first (header ++ '\x7b' :: inside) offset =
      (closeBody? 0 inside).elim (.unterminated (header ++ ['\x7b']) offset, inside) fun found =>
        (.block keyword (Text.trim header) found.1 (offset + Text.size header + 1)
          (header ++ '\x7b' :: found.1 ++ ['\x7d']) offset, found.2) := by
  unfold first
  rw [hkeyword]
  dsimp only
  rw [takeWhile_ne_append hheader, List.drop_left]
  dsimp only
  rw [if_pos haccepted]
  cases closeBody? 0 inside with
  | none => rfl
  | some found => rfl

/-- The first segment is a simple piece, unless the text begins with a header that is possible. -/
theorem first_cases (text : List Char) (offset : Nat) :
    first text offset = simplePiece text offset ∨
      ∃ keyword header inside, text = header ++ '\x7b' :: inside ∧ '\x7b' ∉ header ∧
        keyword? text = some keyword ∧ isPlausible keyword header = true := by
  by_cases hbrace : '\x7b' ∈ text
  · obtain ⟨header, inside, rfl, hheader⟩ := List.eq_append_cons_of_mem hbrace
    by_cases hpossible : ∃ keyword, keyword? (header ++ '\x7b' :: inside) = some keyword ∧
        isPlausible keyword header = true
    · obtain ⟨keyword, hkeyword, haccepted⟩ := hpossible
      exact .inr ⟨keyword, header, inside, rfl, hheader, hkeyword, haccepted⟩
    · refine .inl (first_of_no_header ?_ offset)
      intro keyword hkeyword
      rw [takeWhile_ne_append hheader, Bool.eq_false_iff]
      exact fun haccepted => hpossible ⟨keyword, hkeyword, haccepted⟩
  · exact .inl (first_of_no_brace hbrace offset)

/-- What is left after the first segment is the end of the text. -/
theorem first_suffix (text : List Char) (offset : Nat) : (first text offset).2 <:+ text := by
  rcases first_cases text offset with
    hsimple | ⟨keyword, header, inside, rfl, hheader, hkeyword, haccepted⟩
  · rw [hsimple]
    exact simplePiece_suffix text offset
  · rw [first_of_header hheader hkeyword haccepted]
    cases hclose : closeBody? 0 inside with
    | none => exact ⟨header ++ ['\x7b'], (List.append_cons header '\x7b' inside).symm⟩
    | some closed =>
        obtain ⟨body, rest⟩ := closed
        obtain ⟨rfl, -⟩ := eq_append_of_closeBody? hclose
        exact ⟨header ++ '\x7b' :: (body ++ ['\x7d']), by simp⟩

theorem simplePiece_of_first {text piece rest : List Char} {offset place : Nat}
    (h : first text offset = (.simple piece place, rest)) :
    simplePiece text offset = (.simple piece place, rest) := by
  rcases first_cases text offset with
    hsimple | ⟨keyword, header, inside, rfl, hheader, hkeyword, haccepted⟩
  · exact hsimple ▸ h
  · rw [first_of_header hheader hkeyword haccepted] at h
    cases hclose : closeBody? 0 inside <;> rw [hclose] at h <;> cases h

theorem simplePiece_ne_block {text header body piece rest : List Char} {keyword : Keyword}
    {offset bodyOffset place : Nat} :
    simplePiece text offset ≠ (.block keyword header body bodyOffset piece place, rest) := by
  intro h
  unfold simplePiece at h
  dsimp only at h
  split at h <;> cases h

/-- A block is a block whatever stands behind. -/
theorem first_eq_block {text header body piece rest : List Char} {keyword : Keyword}
    {offset bodyOffset place : Nat}
    (h : first text offset = (.block keyword header body bodyOffset piece place, rest)) :
    text = piece ++ rest ∧ '\x7b' ∈ piece ∧ (∃ front, piece = front ++ ['\x7d']) ∧
      ∀ suffix, first (piece ++ suffix) offset =
        (.block keyword header body bodyOffset piece place, suffix) := by
  rcases first_cases text offset with
    hsimple | ⟨found, front, inside, rfl, hfront, hkeyword, haccepted⟩
  · exact absurd (hsimple ▸ h) simplePiece_ne_block
  · rw [first_of_header hfront hkeyword haccepted] at h
    cases hclose : closeBody? 0 inside with
    | none =>
        rw [hclose] at h
        cases h
    | some closed =>
        obtain ⟨body, after⟩ := closed
        rw [hclose] at h
        cases h
        obtain ⟨hinside, hsuffix⟩ := eq_append_of_closeBody? hclose
        refine ⟨?_, by simp, ⟨front ++ '\x7b' :: body, by simp⟩, ?_⟩
        · rw [hinside]
          simp
        · intro suffix
          have hsame : keyword? (front ++ '\x7b' :: (body ++ '\x7d' :: suffix)) =
              some keyword := by
            rw [keyword?_append front rfl] at hkeyword ⊢
            exact hkeyword
          have hpiece : (front ++ '\x7b' :: body ++ ['\x7d']) ++ suffix =
              front ++ '\x7b' :: (body ++ '\x7d' :: suffix) := by simp
          rw [hpiece, first_of_header hfront hsame haccepted, hsuffix, Option.elim_some]

theorem first_block {keyword : Keyword} {header body : List Char} (hheader : '\x7b' ∉ header)
    (hopen : '\x7b' ∉ body) (hclose : '\x7d' ∉ body)
    (haccepted : isPlausible keyword header = true) {suffix : List Char}
    (hkeyword : keyword? (header ++ '\x7b' :: (body ++ '\x7d' :: suffix)) = some keyword)
    (offset : Nat) :
    first (header ++ '\x7b' :: (body ++ '\x7d' :: suffix)) offset =
      (.block keyword (Text.trim header) body (offset + Text.size header + 1)
        (header ++ '\x7b' :: body ++ ['\x7d']) offset, suffix) := by
  rw [first_of_header hheader hkeyword haccepted, closeBody?_append hopen hclose,
    Option.elim_some]

/-! ## Texts -/

theorem split_of_trimStart {text cs : List Char} {c : Char} (h : Text.trimStart text = c :: cs)
    (offset : Nat) :
    split text offset =
      (first (c :: cs) (offset + (Text.size text - Text.size (c :: cs)))).1 ::
        split (first (c :: cs) (offset + (Text.size text - Text.size (c :: cs)))).2
          (offset + (Text.size text -
            Text.size (first (c :: cs) (offset + (Text.size text - Text.size (c :: cs)))).2)) := by
  rw [split.eq_def]
  split
  · rename_i hnil
    rw [h] at hnil
    cases hnil
  · rename_i d ds hcons
    rw [h] at hcons
    cases hcons
    rfl

theorem split_of_blank {text : List Char} (h : Text.trimStart text = []) (offset : Nat) :
    split text offset = [] := by
  rw [split.eq_def]
  split
  · rfl
  · rename_i hcons
    rw [h] at hcons
    cases hcons

theorem split_nil (offset : Nat) : split [] offset = [] := split_of_blank rfl offset

/-- A blank before a segment only moves the place where the segment begins. -/
theorem split_blank {c : Char} (hc : Text.isBlank c = true) (text : List Char) (offset : Nat) :
    split (c :: text) offset = split text (offset + c.utf8Size) := by
  have htrim : Text.trimStart (c :: text) = Text.trimStart text := by
    simp [Text.trimStart, hc]
  have hmove {back : List Char} (hback : back <:+ text) :
      offset + (Text.size (c :: text) - Text.size back) =
        offset + c.utf8Size + (Text.size text - Text.size back) := by
    have hle := Text.size_le_of_suffix hback
    rw [Text.size_cons]
    omega
  cases hrest : Text.trimStart text with
  | nil => rw [split_of_blank (htrim.trans hrest), split_of_blank hrest]
  | cons d ds =>
      have hsuffix : (d :: ds) <:+ text := hrest ▸ List.dropWhile_suffix Text.isBlank
      rw [split_of_trimStart (htrim.trans hrest), split_of_trimStart hrest, hmove hsuffix,
        hmove ((first_suffix (d :: ds) _).trans hsuffix)]

theorem split_feed (text : List Char) (offset : Nat) :
    split ('\n' :: text) offset = split text (offset + 1) :=
  split_blank rfl text offset

theorem split_blanks {gap : List Char} (h : ∀ c ∈ gap, Text.isBlank c = true)
    (text : List Char) (offset : Nat) :
    split (gap ++ text) offset = split text (offset + Text.size gap) := by
  induction gap generalizing offset with
  | nil => rfl
  | cons c cs ih =>
      obtain ⟨hc, hcs⟩ := List.forall_mem_cons.mp h
      rw [List.cons_append, split_blank hc, ih hcs, Text.size_cons, Nat.add_assoc]

/-- The first segment of a text that begins with no blank is followed by the segments of what is
left. -/
theorem split_first {text suffix : List Char} {segment : Segment} {offset : Nat}
    (htext : Text.trimStart text = text) (hne : text ≠ [])
    (hfirst : first text offset = (segment, suffix)) :
    split text offset = segment :: split suffix (offset + (Text.size text - Text.size suffix)) := by
  cases text with
  | nil => exact absurd rfl hne
  | cons c cs => rw [split_of_trimStart htext, Nat.sub_self, Nat.add_zero, hfirst]

/-- The segments of a text after blanks. -/
theorem split_gap {gap text rest : List Char} {segment : Segment} {offset : Nat}
    (hgap : ∀ c ∈ gap, Text.isBlank c = true) (htext : Text.trimStart text = text)
    (hne : text ≠ []) (hfirst : first text (offset + Text.size gap) = (segment, rest)) :
    split (gap ++ text) offset =
      segment :: split rest (offset + Text.size gap + (Text.size text - Text.size rest)) := by
  rw [split_blanks hgap, split_first htext hne hfirst]

/-- A text is blank, or it is a gap, a first segment and a shorter text after it. -/
@[elab_as_elim]
theorem split_induction {P : List Char → Nat → Prop}
    (blank : ∀ text offset, (∀ c ∈ text, Text.isBlank c = true) → P text offset)
    (piece : ∀ gap text rest segment offset, (∀ c ∈ gap, Text.isBlank c = true) →
      Text.trimStart text = text → text ≠ [] →
      first text (offset + Text.size gap) = (segment, rest) → rest.length < text.length →
      P rest (offset + Text.size gap + (Text.size text - Text.size rest)) → P (gap ++ text) offset)
    (text : List Char) (offset : Nat) : P text offset := by
  induction hlength : text.length using Nat.strongRecOn generalizing text offset with
  | ind n ih =>
      cases htrim : Text.trimStart text with
      | nil => exact blank text offset (Text.trimStart_eq_nil_iff.mp htrim)
      | cons c cs =>
          have hc := Text.isBlank_head_trimStart htrim
          obtain ⟨gap, hgap, rfl⟩ := Text.exists_blank_start htrim
          rcases hfirst : first (c :: cs) (offset + Text.size gap) with ⟨segment, rest⟩
          have hlt := @length_first_lt c cs hc (offset + Text.size gap)
          rw [hfirst] at hlt
          apply piece gap (c :: cs) rest segment offset hgap (Text.trimStart_of_visible hc cs)
            (List.cons_ne_nil c cs) hfirst hlt
          apply ih _ _ _ _ rfl
          rw [← hlength, List.length_append]
          exact Nat.lt_add_left gap.length hlt

theorem trimStart_append {text : List Char} (htext : Text.trimStart text = text) (hne : text ≠ [])
    (rest : List Char) : Text.trimStart (text ++ rest) = text ++ rest := by
  cases text with
  | nil => exact absurd rfl hne
  | cons c cs =>
      rw [List.cons_append]
      exact Text.trimStart_of_visible (Text.isBlank_head_trimStart htext) (cs ++ rest)

/-- A piece after blanks, and what is cut off after it. -/
theorem split_piece {gap piece rest after : List Char} {segment : Segment} {offset : Nat}
    (hgap : ∀ c ∈ gap, Text.isBlank c = true) (hpiece : Text.trimStart piece = piece)
    (hne : piece ≠ [])
    (hfirst : first (piece ++ rest) (offset + Text.size gap) = (segment, after)) :
    split (gap ++ (piece ++ rest)) offset =
      segment ::
        split after (offset + Text.size gap + (Text.size (piece ++ rest) - Text.size after)) := by
  rw [split_gap hgap (trimStart_append hpiece hne rest)
    (List.append_ne_nil_of_left_ne_nil hne rest) hfirst]

theorem split_whole_piece {gap piece rest : List Char} {segment : Segment} {offset : Nat}
    (hgap : ∀ c ∈ gap, Text.isBlank c = true) (hpiece : Text.trimStart piece = piece)
    (hne : piece ≠ [])
    (hfirst : first (piece ++ rest) (offset + Text.size gap) = (segment, rest)) :
    split (gap ++ (piece ++ rest)) offset =
      segment :: split rest (offset + Text.size gap + Text.size piece) := by
  rw [split_piece hgap hpiece hne hfirst, Text.size_append, Nat.add_sub_cancel]

end Script.Segment

end Playscript
