import StageMachine.Instruction.Assembly

/-! Texts put together and taken apart. What is known of splitting follows from one equation: a
separator ends one piece and begins the next. -/
namespace StageMachine
namespace Text

theorem splitWhen_append {α : Type} {separator : α → Bool} {c : α} (ends : separator c)
    (x y : List α) :
    splitWhen separator (x ++ c :: y) = splitWhen separator x ++ splitWhen separator y := by
  induction x with
  | nil => simp [splitWhen, ends]
  | cons a x ih =>
    obtain ⟨piece, pieces, found⟩ := List.exists_cons_of_ne_nil (splitWhen_ne_nil separator x)
    cases here : separator a <;> simp [splitWhen, here, ih, found]

theorem splitWhen_eq_singleton {α : Type} {separator : α → Bool} {x : List α}
    (solid : ∀ a ∈ x, separator a = false) : splitWhen separator x = [x] := by
  induction x with
  | nil => rfl
  | cons a x ih =>
    have tail := ih (fun b member => solid b (by simp [member]))
    simp [splitWhen, solid a (by simp), tail]

theorem solid_of_mem_splitWhen {α : Type} {separator : α → Bool} {x piece : List α}
    (member : piece ∈ splitWhen separator x) : ∀ a ∈ piece, separator a = false := by
  induction x generalizing piece with
  | nil =>
    obtain rfl := List.mem_singleton.1 member
    nofun
  | cons c x ih =>
    obtain ⟨first, pieces, found⟩ := List.exists_cons_of_ne_nil (splitWhen_ne_nil separator x)
    rw [found] at ih
    cases here : separator c with
    | true =>
      rw [splitWhen, here, found] at member
      rcases List.mem_cons.1 member with rfl | later
      · nofun
      · exact ih later
    | false =>
      rw [splitWhen, here, found] at member
      rcases List.mem_cons.1 member with rfl | later
      · exact List.forall_mem_cons.2 ⟨here, ih List.mem_cons_self⟩
      · exact ih (List.mem_cons_of_mem first later)

theorem lines_append (s t : Text) : lines (s ++ '\n' :: t) = lines s ++ lines t :=
  splitWhen_append (by rfl) s t

theorem lines_eq_singleton {t : Text} (single : '\n' ∉ t) : lines t = [t] := by
  apply splitWhen_eq_singleton
  intro c member
  have : c ≠ '\n' := fun same => single (same ▸ member)
  simp [this]

theorem joined_cons {between t : Text} {ts : List Text} (some : ts ≠ []) :
    joined between (t :: ts) = t ++ between ++ joined between ts := by
  cases ts with
  | nil => exact absurd rfl some
  | cons u ts => rfl

theorem lines_joined {ts : List Text} (some : ts ≠ []) (single : ∀ t ∈ ts, '\n' ∉ t) :
    lines (joined ['\n'] ts) = ts := by
  induction ts with
  | nil => exact absurd rfl some
  | cons t ts ih =>
    have here := lines_eq_singleton (single t (by simp))
    cases ts with
    | nil => exact here
    | cons u ts =>
      have rest := ih (by simp) (fun x member => single x (by simp [member]))
      rw [joined, List.append_assoc, List.singleton_append, lines_append, here, rest]
      · rfl
      · simp

theorem mem_joined {between : Text} {ts : List Text} {c : Char} (member : c ∈ joined between ts) :
    c ∈ between ∨ ∃ t ∈ ts, c ∈ t := by
  induction ts with
  | nil => simp [joined] at member
  | cons t ts ih =>
    cases ts with
    | nil => exact .inr ⟨t, by simp, member⟩
    | cons u ts =>
      rw [joined, List.mem_append, List.mem_append] at member
      · rcases member with (member | member) | member
        · exact .inr ⟨t, by simp, member⟩
        · exact .inl member
        · rcases ih member with found | ⟨v, inside, found⟩
          · exact .inl found
          · exact .inr ⟨v, by simp [inside], found⟩
      · simp

theorem getLast?_joined {between : Text} {ts : List Text} (some : ts ≠ []) (solid : ∀ t ∈ ts, t ≠ []) :
    ∃ t ∈ ts, (joined between ts).getLast? = t.getLast? := by
  induction ts with
  | nil => exact absurd rfl some
  | cons t ts ih =>
    cases ts with
    | nil => exact ⟨t, by simp, rfl⟩
    | cons u ts =>
      obtain ⟨v, inside, last⟩ := ih (by simp) fun x member => solid x (by simp [member])
      refine ⟨v, by simp [inside], ?_⟩
      have ended : v.getLast? ≠ none := by
        have := solid v (by simp [inside])
        simpa using this
      rw [joined, List.getLast?_append, last]
      · cases found : v.getLast? with
        | none => exact absurd found ended
        | some c => rfl
      · simp

theorem dropWhile_eq_self {t : Text} (first : ∀ c ∈ t.head?, isBlank c = false) : t.dropWhile isBlank = t := by
  cases t with
  | nil => rfl
  | cons c rest =>
    have solid := first c (by simp)
    simp [solid]

theorem trim_eq_self {t : Text} (first : ∀ c ∈ t.head?, isBlank c = false)
    (last : ∀ c ∈ t.getLast?, isBlank c = false) : trim t = t := by
  rw [trim, trimStart, dropWhile_eq_self first, trimEnd, dropWhile_eq_self (by simpa using last),
    List.reverse_reverse]

theorem trim_padded {before t after : Text} (blank : ∀ c ∈ before ++ after, isBlank c)
    (solid : ∀ c ∈ t, isBlank c = false) (begun : t ≠ []) : trim (before ++ t ++ after) = t := by
  have leading : ∀ c ∈ before, isBlank c := fun c member => blank c (by simp [member])
  have trailing : ∀ c ∈ after.reverse, isBlank c := fun c member => blank c (by simp [List.mem_reverse.1 member])
  have start : trimStart (before ++ t ++ after) = t ++ after := by
    obtain ⟨c, rest, rfl⟩ := List.exists_cons_of_ne_nil begun
    rw [trimStart, List.append_assoc, List.dropWhile_append_of_pos leading, List.cons_append,
      List.dropWhile_cons_of_neg (by simp [solid c])]
  have ended : t.reverse.dropWhile isBlank = t.reverse :=
    dropWhile_eq_self fun c last => solid c (List.mem_reverse.1 (List.mem_of_mem_head? last))
  rw [trim, start, trimEnd, List.reverse_append, List.dropWhile_append_of_pos trailing, ended, List.reverse_reverse]

end Text

namespace Assembly
open Text

theorem ne_semicolon_of_isSeparator {c : Char} (ends : isSeparator c) : c ≠ ';' := by
  rintro rfl
  exact absurd ends (by decide)

theorem takeWhile_spoken {x : Text} (spoken : ';' ∉ x) (y : Text) :
    (x ++ y).takeWhile (· != ';') = x ++ y.takeWhile (· != ';') := by
  apply List.takeWhile_append_of_pos
  intro a member
  have : a ≠ ';' := fun same => spoken (same ▸ member)
  simpa using this

theorem takeWhile_eq_self {x : Text} (spoken : ';' ∉ x) : x.takeWhile (· != ';') = x := by
  simpa using takeWhile_spoken spoken []

theorem tokens_append {x : Text} (spoken : ';' ∉ x) {c : Char} (ends : isSeparator c) (y : Text) :
    tokens (x ++ c :: y) = tokens x ++ tokens y := by
  have kept : (c :: y).takeWhile (· != ';') = c :: y.takeWhile (· != ';') := by
    simp [ne_semicolon_of_isSeparator ends]
  rw [tokens, takeWhile_spoken spoken, kept, splitWhen_append ends, List.filter_append, tokens, tokens,
    takeWhile_eq_self spoken]

theorem tokens_separator {c : Char} (ends : isSeparator c) (t : Text) :
    tokens (c :: t) = tokens t := by
  have split := tokens_append (x := []) (by simp) ends t
  rwa [List.nil_append, show tokens [] = [] from rfl, List.nil_append] at split

/-- A word that a line can hold: something without a separator or the beginning of a comment. -/
structure IsWord (word : Text) : Prop where
  ne_nil : word ≠ []
  solid : ∀ c ∈ word, isSeparator c = false
  spoken : ';' ∉ word

theorem IsWord.isBlank_eq_false {word : Text} (w : IsWord word) {c : Char} (member : c ∈ word) :
    isBlank c = false := by
  have := w.solid c member
  simp only [isSeparator, Bool.or_eq_false_iff] at this
  exact this.1

theorem IsWord.tokens_eq {word : Text} (w : IsWord word) : tokens word = [word] := by
  rw [tokens, takeWhile_eq_self w.spoken, splitWhen_eq_singleton w.solid]
  simp [w.ne_nil]

theorem isBlank_of_mem_tokens {line token : Text} (member : token ∈ tokens line) {c : Char}
    (inside : c ∈ token) : isBlank c = false := by
  have solid := solid_of_mem_splitWhen (List.mem_filter.1 member).1 c inside
  simp only [isSeparator, Bool.or_eq_false_iff] at solid
  exact solid.1

theorem tokens_joined {words : List Text} (solid : ∀ w ∈ words, IsWord w) :
    tokens (joined [',', ' '] words) = words := by
  induction words with
  | nil => rfl
  | cons w words ih =>
    have here := solid w (by simp)
    have rest := ih (fun x member => solid x (by simp [member]))
    cases words with
    | nil => exact here.tokens_eq
    | cons u words =>
      have shape : joined [',', ' '] (w :: u :: words) =
          w ++ ',' :: ' ' :: joined [',', ' '] (u :: words) := by simp [joined]
      rw [shape, tokens_append here.spoken (by rfl), here.tokens_eq, tokens_separator (by rfl), rest]
      rfl

/-- A mnemonic and its operands come back from the line that was made of them. -/
theorem tokens_words {name : Text} (n : IsWord name) {operands : List Text}
    (solid : ∀ w ∈ operands, IsWord w) :
    tokens (name ++ ' ' :: joined [',', ' '] operands) = name :: operands := by
  rw [tokens_append n.spoken (by rfl), n.tokens_eq, tokens_joined solid]
  rfl

end Assembly
end StageMachine
