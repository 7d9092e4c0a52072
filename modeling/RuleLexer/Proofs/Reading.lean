import Mathlib.Data.List.TakeWhile
import RuleLexer.Regex.Parser

/-! Readers of a part of a pattern. A reader that is given a text by itself, and the same text with
something behind it, finds the same in both, as long as what is behind is closed off by a
parenthesis: that ends no number, no name and no class. `Carries` says so of the two readings, and
what can become of the second where the first fails. -/
namespace RuleLexer.Regex

/-- The end of a text, or a text that begins with a closing parenthesis. -/
def Closing (behind : List Char) : Prop := ∀ c ∈ behind.head?, c = ')'

theorem Closing.eq {behind : List Char} (h : Closing behind) :
    behind = [] ∨ ∃ more, behind = ')' :: more := by
  cases behind with
  | nil => exact .inl rfl
  | cons c more => exact .inr ⟨more, by rw [h c rfl]⟩

theorem Closing.starts {behind text rest : List Char} (h : Closing behind) {d : Char} (hd : d ≠ ')')
    (heq : text ++ behind = d :: rest) : ∃ more, text = d :: more ∧ rest = more ++ behind := by
  cases text with
  | nil => exact absurd (h d (by rw [← List.nil_append behind, heq]; rfl)) hd
  | cons c more =>
    obtain ⟨rfl, rfl⟩ := List.cons.inj heq
    exact ⟨more, rfl, rfl⟩

theorem Closing.not_starts {behind text : List Char} (h : Closing behind) {d : Char} (hd : d ≠ ')')
    (hne : ∀ rest, text ≠ d :: rest) (rest : List Char) : text ++ behind ≠ d :: rest := by
  intro heq
  obtain ⟨more, rfl, -⟩ := h.starts hd heq
  exact hne more rfl

theorem Closing.head?_ne {behind text : List Char} (h : Closing behind) {d : Char} (hd : d ≠ ')')
    (hne : text.head? ≠ some d) : (text ++ behind).head? ≠ some d := by
  intro heq
  obtain ⟨rest, heq⟩ := List.head?_eq_some_iff.1 heq
  obtain ⟨more, rfl, -⟩ := h.starts hd heq
  exact hne rfl

theorem refused_ne_found {α : Type} (e : SyntaxError) (a : α) :
    (Except.error e : Reading α) ≠ .ok a := by
  intro heq
  cases heq

/-- Two readings of which the second finds what the first does. Where the first fails the second
does too, or it has lost what it has to find. -/
inductive Carries {α β : Type} (R : α → β → Prop) (Lost : SyntaxError → β → Prop) :
    Reading α → Reading β → Prop
  | ok {a : α} {b : β} (h : R a b) : Carries R Lost (.ok a) (.ok b)
  | refused (e e' : SyntaxError) : Carries R Lost (.error e) (.error e')
  | past {e : SyntaxError} {b : β} (h : Lost e b) : Carries R Lost (.error e) (.ok b)

namespace Carries
variable {α β γ δ : Type} {R : α → β → Prop} {S : γ → δ → Prop}
  {Lost : SyntaxError → β → Prop} {Lost' : SyntaxError → δ → Prop}

theorem bind {x : Reading α} {y : Reading β} {f : α → Reading γ} {g : β → Reading δ}
    (h : Carries R Lost x y) (hok : ∀ a b, R a b → Carries S Lost' (f a) (g b))
    (hlost : ∀ e b, Lost e b → ∀ d, g b = .ok d → Lost' e d) :
    Carries S Lost' (x >>= f) (y >>= g) := by
  cases h with
  | ok h => exact hok _ _ h
  | refused => exact .refused _ _
  | @past e b h =>
    cases hg : g b with
    | error e' =>
      have : (Except.ok b >>= g) = .error e' := hg
      rw [this]
      exact .refused _ _
    | ok d =>
      have : (Except.ok b >>= g) = .ok d := hg
      rw [this]
      exact .past (hlost e b h d hg)

theorem of_ok {a : α} {y : Reading β} (h : Carries R Lost (.ok a) y) :
    ∃ b, y = .ok b ∧ R a b := by
  cases h with
  | ok h => exact ⟨_, rfl, h⟩

theorem lost {e : SyntaxError} {b : β} (h : Carries R Lost (.error e) (.ok b)) : Lost e b := by
  cases h with
  | past h => exact h

theorem map {x : Reading α} {y : Reading β} {f : α → γ} {g : β → δ} (h : Carries R Lost x y)
    (hok : ∀ a b, R a b → S (f a) (g b)) (hlost : ∀ e b, Lost e b → Lost' e (g b)) :
    Carries S Lost' (x.map f) (y.map g) := by
  cases h with
  | ok h => exact .ok (hok _ _ h)
  | refused => exact .refused _ _
  | past h => exact .past (hlost _ _ h)

theorem of_error {e : SyntaxError} {y : Reading β} (h : ∀ b, y = .ok b → Lost e b) :
    Carries R Lost (.error e) y := by
  cases y with
  | error e' => exact .refused _ _
  | ok b => exact .past (h b rfl)

theorem mono {Lost' : SyntaxError → β → Prop} {R' : α → β → Prop} {x : Reading α} {y : Reading β}
    (h : Carries R Lost x y) (hok : ∀ a b, R a b → R' a b)
    (hlost : ∀ e b, Lost e b → Lost' e b) : Carries R' Lost' x y := by
  cases h with
  | ok h => exact .ok (hok _ _ h)
  | refused => exact .refused _ _
  | past h => exact .past (hlost _ _ h)

end Carries

def Onward {α β : Type} (behind : List Char) (bound : Nat) (V : α → β → Prop)
    (x : α × List Char) (y : β × List Char) : Prop :=
  V x.1 y.1 ∧ y.2 = x.2 ++ behind ∧ x.2.length ≤ bound

theorem Carries.onward {α β : Type} {behind : List Char} {bound bound' : Nat} {V V' : α → β → Prop}
    {Lost : SyntaxError → β × List Char → Prop} {x : Reading (α × List Char)}
    {y : Reading (β × List Char)} (h : Carries (Onward behind bound V) Lost x y)
    (hV : ∀ a b, V a b → V' a b) (hle : bound ≤ bound') :
    Carries (Onward behind bound' V') Lost x y :=
  h.mono (fun _ _ hon => ⟨hV _ _ hon.1, hon.2.1, Nat.le_trans hon.2.2 hle⟩) fun _ _ hlost => hlost

/-- Behind a text comes nothing but its closing parenthesis, and of that only what is listed is
left. -/
def Leaves {β : Type} (behind : List Char) (ends : List (List Char)) (_ : SyntaxError)
    (y : β × List Char) : Prop := behind = [')'] → y.2 ∈ ends

/-- Where the closing parenthesis has been taken for something else, or a brace is left open in
front of it. -/
def spoiled : List (List Char) := [[], ['{', ')']]

section taking
variable {behind : List Char} {p : Char → Bool}

theorem takeWhile_closing (h : ∀ c ∈ behind.head?, p c = false) (text : List Char) :
    (text ++ behind).takeWhile p = text.takeWhile p := by
  induction text with
  | nil =>
    cases behind with
    | nil => rfl
    | cons c more => simp [h c rfl]
  | cons c text ih =>
    rw [List.cons_append, List.takeWhile_cons, List.takeWhile_cons, ih]

theorem dropWhile_closing (h : ∀ c ∈ behind.head?, p c = false) (text : List Char) :
    (text ++ behind).dropWhile p = text.dropWhile p ++ behind := by
  induction text with
  | nil =>
    cases behind with
    | nil => rfl
    | cons c more => simp [h c rfl]
  | cons c text ih =>
    rw [List.cons_append, List.dropWhile_cons, List.dropWhile_cons, ih]
    split <;> rfl

theorem takeWhile_stopped {text after : List Char} {d : Char} (h : text.dropWhile p = d :: after)
    (behind : List Char) : (text ++ behind).takeWhile p = text.takeWhile p ∧
      (text ++ behind).dropWhile p = d :: (after ++ behind) := by
  induction text with
  | nil => cases h
  | cons c text ih =>
    rw [List.dropWhile_cons] at h
    rw [List.cons_append, List.takeWhile_cons, List.takeWhile_cons, List.dropWhile_cons]
    split at h
    · next hc =>
      rw [if_pos hc, if_pos hc, if_pos hc, (ih h).1]
      exact ⟨rfl, (ih h).2⟩
    · next hc =>
      rw [if_neg hc, if_neg hc, if_neg hc]
      obtain ⟨rfl, rfl⟩ := List.cons.inj h
      exact ⟨rfl, rfl⟩

theorem takeWhile_open {text : List Char} (h : text.dropWhile p = []) (behind : List Char) :
    (text ++ behind).takeWhile p = text ++ behind.takeWhile p ∧
      (text ++ behind).dropWhile p = behind.dropWhile p := by
  have hall : ∀ c ∈ text, p c = true := List.dropWhile_eq_nil_iff.1 h
  exact ⟨List.takeWhile_append_of_pos hall, List.dropWhile_append_of_pos hall⟩

theorem length_dropWhile_le (p : Char → Bool) (text : List Char) :
    (text.dropWhile p).length ≤ text.length :=
  (List.dropWhile_sublist p).length_le

theorem takeRun_cons (p : Char → Bool) (limit : Nat) (c : Char) (text : List Char) :
    takeRun false p (limit + 1) false (c :: text) =
      if p c then (c :: (takeRun false p limit false text).1, (takeRun false p limit false text).2)
      else ([], c :: text) := by
  simp [takeRun]

theorem takeRun_closing (h : ∀ c ∈ behind.head?, p c = false) (limit : Nat) (text : List Char) :
    takeRun false p limit false (text ++ behind) =
      ((takeRun false p limit false text).1, (takeRun false p limit false text).2 ++ behind) := by
  induction text generalizing limit with
  | nil =>
    cases behind with
    | nil => simp [takeRun]
    | cons c more => cases limit <;> simp [takeRun, h c rfl]
  | cons c text ih =>
    cases limit with
    | zero => simp [takeRun]
    | succ limit =>
      rw [List.cons_append, takeRun_cons, takeRun_cons, ih]
      split <;> rfl

theorem takeRun_eq {limit : Nat} {text : List Char} (h : text.length ≤ limit) :
    takeRun false p limit false text = (text.takeWhile p, text.dropWhile p) := by
  induction text generalizing limit with
  | nil => simp [takeRun]
  | cons c text ih =>
    cases limit with
    | zero => cases h
    | succ limit =>
      rw [takeRun_cons, ih (Nat.le_of_succ_le_succ h), List.takeWhile_cons, List.dropWhile_cons]
      split <;> rfl

theorem length_takeRun_le (p : Char → Bool) (limit : Nat) (text : List Char) :
    (takeRun false p limit false text).2.length ≤ text.length := by
  induction text generalizing limit with
  | nil => simp [takeRun]
  | cons c text ih =>
    cases limit with
    | zero => simp [takeRun]
    | succ limit =>
      rw [takeRun_cons]
      split
      · exact Nat.le_succ_of_le (ih limit)
      · exact Nat.le_refl _

end taking

theorem skip_false (text : List Char) : skip false text = text := rfl

section bounds
variable {behind : List Char}

theorem Closing.isSpace (h : Closing behind) : ∀ c ∈ behind.head?, Unicode.isSpace c = false := by
  intro c hc
  rw [h c hc]
  decide +kernel

theorem Closing.fails (h : Closing behind) {p : Char → Bool} (hp : p ')' = false) :
    ∀ c ∈ behind.head?, p c = false := fun c hc => h c hc ▸ hp

theorem readCount_closing (h : Closing behind) (text : List Char) :
    readCount false (text ++ behind) =
      (readCount false text).map fun x => (x.1, x.2 ++ behind) := by
  have hspace := h.isSpace
  have hdigit := h.fails (p := isAsciiDigit) (by decide)
  rw [readCount, readCount, dropWhile_closing hspace, takeRun_eq (by
    rw [← dropWhile_closing hspace]; exact length_dropWhile_le _ _),
    takeRun_eq (length_dropWhile_le _ _), takeWhile_closing hdigit, dropWhile_closing hdigit]
  simp only [dropWhile_closing hspace]
  split <;> rfl

theorem length_readCount_le {text : List Char} {x : Nat × List Char}
    (h : readCount false text = .ok x) : x.2.length ≤ text.length := by
  rw [readCount] at h
  dsimp only at h
  split at h
  · cases h
  · cases h
    exact Nat.le_trans (length_dropWhile_le _ _)
      (Nat.le_trans (length_takeRun_le _ _ _) (length_dropWhile_le _ _))

theorem closeBounds_closing (h : Closing behind) (low : Nat) (high : Option Nat)
    (text : List Char) : closeBounds false low high (text ++ behind) =
      (closeBounds false low high text).map fun x => (x.1, x.2 ++ behind) := by
  cases text with
  | nil => rcases h.eq with rfl | ⟨more, rfl⟩ <;> rfl
  | cons c rest =>
    by_cases hc : c = '}'
    · subst hc
      simp only [closeBounds, List.cons_append, skip_false]
      split
      · cases rest with
        | nil => rcases h.eq with rfl | ⟨more, rfl⟩ <;> rfl
        | cons d rest =>
          by_cases hd : d = '?'
          · subst hd
            rfl
          · simp [hd, Except.map]
      · rfl
    · simp [closeBounds, hc, Except.map]

theorem length_closeBounds_le {low : Nat} {high : Option Nat} {text : List Char}
    {x : Bounds × List Char} (h : closeBounds false low high text = .ok x) :
    x.2.length < text.length := by
  cases text with
  | nil => cases h
  | cons c rest =>
    by_cases hc : c = '}'
    · subst hc
      simp only [closeBounds, skip_false] at h
      split at h
      · split at h <;> cases h <;> simp only [List.length_cons] <;> omega
      · cases h
    · simp [closeBounds, hc] at h

theorem readBounds_closing (h : Closing behind) (text : List Char) :
    readBounds false (text ++ behind) =
      (readBounds false text).map fun x => (x.1, x.2 ++ behind) := by
  have hhigh (low : Nat) (rest : List Char) :
      (readCount false (rest ++ behind) >>= fun y => closeBounds false low (some y.1) y.2) =
        (readCount false rest >>= fun y => closeBounds false low (some y.1) y.2).map
          fun x => (x.1, x.2 ++ behind) := by
    rw [readCount_closing h]
    cases readCount false rest with
    | error e => rfl
    | ok x => exact closeBounds_closing h low (some x.1) x.2
  simp only [readBounds, skip_false, readCount_closing h]
  cases readCount false text with
  | error e => rfl
  | ok x =>
    obtain ⟨low, rest⟩ := x
    simp only [bind, Except.bind, Except.map] at hhigh ⊢
    cases rest with
    | nil =>
      rw [List.nil_append]
      rcases h.eq with rfl | ⟨more, rfl⟩
      · rfl
      · exact closeBounds_closing h low (some low) []
    | cons c rest =>
      by_cases hc : c = ','
      · subst hc
        cases rest with
        | nil =>
          rw [List.cons_append, List.nil_append]
          rcases h.eq with rfl | ⟨more, rfl⟩
          · rfl
          · exact hhigh low []
        | cons d rest =>
          by_cases hd : d = '}'
          · subst hd
            exact closeBounds_closing h low none ('}' :: rest)
          · have := hhigh low (d :: rest)
            simpa [hd] using this
      · have := closeBounds_closing h low (some low) (c :: rest)
        simpa [hc, Except.map] using this

theorem length_readBounds_le {text : List Char} {x : Bounds × List Char}
    (h : readBounds false text = .ok x) : x.2.length < text.length := by
  simp only [readBounds, skip_false, bind, Except.bind] at h
  cases hlow : readCount false text with
  | error e =>
    rw [hlow] at h
    cases h
  | ok y =>
    have hle := length_readCount_le hlow
    rw [hlow] at h
    obtain ⟨low, rest⟩ := y
    dsimp only at h hle
    split at h
    · next rest =>
      split at h
      · have := length_closeBounds_le h
        simp only [List.length_cons] at hle this
        omega
      · cases hhigh : readCount false rest with
        | error e =>
          rw [hhigh] at h
          cases h
        | ok z =>
          rw [hhigh] at h
          have hle' := length_readCount_le hhigh
          have := length_closeBounds_le h
          simp only [List.length_cons] at hle
          omega
    · have := length_closeBounds_le h
      omega

end bounds

/-! Flags -/

/-- Flags that differ at most in what characters, anchors and repetitions come to; they do not
differ at all if they are to be the same. -/
structure Flags.Alike (same : Prop) (f g : Flags) : Prop where
  unicode : f.unicode = g.unicode
  verbose : f.verbose = g.verbose
  eq : same → f = g

theorem Flags.Alike.refl (same : Prop) (f : Flags) : f.Alike same f := ⟨rfl, rfl, fun _ => rfl⟩

def Same {α : Type} (same : Prop) (a b : α) : Prop := same → a = b

theorem Flags.Alike.set {same : Prop} {f g : Flags} (h : f.Alike same g) (letter : Char)
    (value : Bool) : (f.set letter value).Alike same (g.set letter value) where
  unicode := by
    unfold Flags.set
    split <;> first | exact h.unicode | rfl
  verbose := by
    unfold Flags.set
    split <;> first | exact h.verbose | rfl
  eq hsame := by rw [h.eq hsame]

theorem Flags.Alike.foldl_set {same : Prop} {f g : Flags} (h : f.Alike same g) (value : Bool)
    (letters : List Char) : (letters.foldl (fun f c => f.set c value) f).Alike same
      (letters.foldl (fun f c => f.set c value) g) := by
  induction letters generalizing f g with
  | nil => exact h
  | cons c letters ih => exact ih (h.set c value)

theorem Flags.Alike.apply {same : Prop} {f g : Flags} (h : f.Alike same g)
    (letters : List Char) : (f.apply letters).Alike same (g.apply letters) :=
  (h.foldl_set true _).foldl_set false _

/-! Escapes -/

section escapes
variable {behind : List Char} {same : Prop} {f g : Flags}

def Primitive.Alike (same : Prop) : Primitive → Primitive → Prop
  | .literal c byte, .literal d byte' => c = d ∧ byte = byte'
  | .set s, .set t => Same same s t
  | .look l, .look m => Same same l m
  | _, _ => False

abbrev CarriesOn {α β : Type} (behind : List Char) (bound : Nat) (V : α → β → Prop) :
    Reading (α × List Char) → Reading (β × List Char) → Prop :=
  Carries (Onward behind bound V) (Leaves behind spoiled)

def behindMark {α : Type} (mark : Char) (missing : SyntaxError) (found : List Char → Reading α) :
    List Char → Reading α
  | [] => .error missing
  | c :: after => if c = mark then found after else .error missing

theorem behindMark_carries {α β : Type} {R : α → β → Prop} {Lost : SyntaxError → β → Prop}
    (h : Closing behind) {mark : Char} (hmark : mark ≠ ')') (missing : SyntaxError)
    {found : List Char → Reading α} {found' : List Char → Reading β} {rest : List Char}
    (hfound : ∀ after, rest = mark :: after →
      Carries R Lost (found after) (found' (after ++ behind))) :
    Carries R Lost (behindMark mark missing found rest)
      (behindMark mark missing found' (rest ++ behind)) := by
  cases rest with
  | nil =>
    rcases h.eq with rfl | ⟨more, rfl⟩
    · exact .refused _ _
    · rw [List.nil_append, behindMark, behindMark, if_neg hmark.symm]
      exact .refused _ _
  | cons c after =>
    rw [List.cons_append, behindMark, behindMark]
    split
    · next hc => exact hfound after (hc ▸ rfl)
    · exact .refused _ _

theorem Carries.of_same {α : Type} {x y : Reading α} {Lost : SyntaxError → α → Prop}
    (heq : same → x = y) (hok : (∃ a, x = .ok a) ↔ ∃ b, y = .ok b) :
    Carries (Same same) Lost x y := by
  cases x with
  | error e =>
    refine .of_error fun b hb => ?_
    obtain ⟨a, ha⟩ := hok.2 ⟨b, hb⟩
    cases ha
  | ok a =>
    obtain ⟨b, rfl⟩ := hok.1 ⟨a, rfl⟩
    exact .ok fun hsame => Except.ok.inj (heq hsame)

theorem negateIf_carries (h : f.Alike same g) (negated : Bool) {s t : CharSet}
    (hs : Same same s t) (Lost : SyntaxError → CharSet → Prop) :
    Carries (Same same) Lost (negateIf f negated s) (negateIf g negated t) := by
  unfold negateIf
  rw [h.unicode]
  split
  · exact .ok hs
  · split
    · exact .ok fun hsame => by rw [hs hsame]
    · exact .refused _ _

theorem perlSet_carries (h : f.Alike same g) (letter : Char)
    (Lost : SyntaxError → CharSet → Prop) :
    Carries (Same same) Lost (perlSet f letter) (perlSet g letter) :=
  negateIf_carries h _ (fun hsame => by rw [h.eq hsame]) Lost

theorem foldCase_same (h : f.Alike same g) {s t : CharSet} (hs : Same same s t) :
    Same same (foldCase f s) (foldCase g t) := fun hsame => by rw [h.eq hsame, hs hsame]

def isHex (c : Char) : Bool := (hexValue? c).isSome

def hexLiteral (digits : List Char) (byte : Bool) (rest : List Char) :
    Reading (Primitive × List Char) :=
  match charOfHex? digits with
  | some c => .ok (.literal c byte, rest)
  | none => .error .codePoint

theorem readHex_brace (hblanks : f.verbose = false) (count : Nat) (rest : List Char) :
    readHex f count ('{' :: rest) = behindMark '}' .escape (fun after =>
      if (rest.takeWhile isHex).isEmpty then .error .escape
      else hexLiteral (rest.takeWhile isHex) false after) (rest.dropWhile isHex) := by
  simp only [readHex, hblanks, skip_false]
  rw [show (fun c => (hexValue? c).isSome) = isHex from rfl, takeRun_eq (Nat.le_refl _)]
  generalize rest.takeWhile isHex = digits
  cases rest.dropWhile isHex with
  | nil => rfl
  | cons d rest =>
    by_cases hd : d = '}'
    · subst hd
      rfl
    · simp [behindMark, hd]

theorem readHex_fixed (hblanks : f.verbose = false) (count : Nat) {text : List Char}
    (h : text.head? ≠ some '{') :
    readHex f count text =
      if (takeRun false isHex count false text).1.length = count then
        hexLiteral (takeRun false isHex count false text).1 (count == 2)
          (takeRun false isHex count false text).2
      else .error .escape := by
  simp only [readHex, hblanks, skip_false]
  split
  · next rest => exact absurd rfl h
  · rfl

theorem hexLiteral_carries (digits : List Char) (byte : Bool) {rest : List Char} {bound : Nat}
    (h : rest.length ≤ bound) : CarriesOn behind bound Eq (hexLiteral digits byte rest)
      (hexLiteral digits byte (rest ++ behind)) := by
  unfold hexLiteral
  split
  · exact .ok ⟨rfl, rfl, h⟩
  · exact .refused _ _

theorem readHex_carries (h : Closing behind) (hblanks : f.verbose = false)
    (hblanks' : g.verbose = false) (count : Nat) (text : List Char) :
    CarriesOn behind text.length Eq (readHex f count text) (readHex g count (text ++ behind)) := by
  have hhex := h.fails (p := isHex) (by decide)
  by_cases hbrace : text.head? = some '{'
  · obtain ⟨rest, rfl⟩ := List.head?_eq_some_iff.1 hbrace
    rw [List.cons_append, readHex_brace hblanks, readHex_brace hblanks', takeWhile_closing hhex,
      dropWhile_closing hhex]
    refine behindMark_carries h (by decide) _ fun after hafter => ?_
    have hle := length_dropWhile_le isHex rest
    rw [hafter, List.length_cons] at hle
    split
    · exact .refused _ _
    · exact hexLiteral_carries _ _ (by rw [List.length_cons]; omega)
  · rw [readHex_fixed hblanks _ hbrace, readHex_fixed hblanks' _ (h.head?_ne (by decide) hbrace),
      takeRun_closing hhex]
    split
    · exact hexLiteral_carries _ _ (length_takeRun_le _ _ _)
    · exact .refused _ _

def propertyClass (flags : Flags) (negated : Bool) (found : Option (CharSet × Bool))
    (rest : List Char) : Reading (CharSet × List Char) :=
  match found with
  | none => .error .unicodeProperty
  | some (s, differs) =>
      if flags.unicode then do
        .ok (← negateIf flags (negated != differs) (foldCase flags s), rest)
      else .error .needsUnicode

theorem readProperty_brace (hblanks : f.verbose = false) (negated : Bool) (rest : List Char) :
    readProperty f negated ('{' :: rest) =
      behindMark '}' .escape (propertyClass f negated (namedProperty? (rest.takeWhile (· != '}'))))
        (rest.dropWhile (· != '}')) := by
  simp only [readProperty, hblanks, skip_false]
  rw [takeRun_eq (Nat.le_refl _)]
  generalize rest.takeWhile (· != '}') = name
  cases rest.dropWhile (· != '}') with
  | nil => rfl
  | cons d rest =>
    by_cases hd : d = '}'
    · subst hd
      rfl
    · simp [behindMark, hd]
      rfl

theorem readProperty_letter (hblanks : f.verbose = false) (negated : Bool) {c : Char}
    (hbrace : c ≠ '{') (hslash : c ≠ '\\') (rest : List Char) :
    readProperty f negated (c :: rest) =
      propertyClass f negated ((PropertyName.find? [c]).map (·, false)) rest := by
  simp only [readProperty, hblanks, skip_false]
  rfl

theorem propertyClass_carries (hflags : f.Alike same g) (negated : Bool)
    (found : Option (CharSet × Bool)) {rest : List Char} {bound : Nat}
    (h : rest.length ≤ bound) :
    CarriesOn behind bound (Same same) (propertyClass f negated found rest)
      (propertyClass g negated found (rest ++ behind)) := by
  cases found with
  | none => exact .refused _ _
  | some x =>
    obtain ⟨s, differs⟩ := x
    simp only [propertyClass, ← hflags.unicode]
    split
    · refine (negateIf_carries hflags _ (foldCase_same hflags fun _ => rfl) fun _ _ => False).bind
        (fun s t hs => .ok ⟨hs, rfl, h⟩) (fun _ _ hlost => hlost.elim)
    · exact .refused _ _

theorem propertyClass_eq {negated : Bool} {found : Option (CharSet × Bool)} {rest : List Char}
    {x : CharSet × List Char} (h : propertyClass f negated found rest = .ok x) : x.2 = rest := by
  cases found with
  | none => cases h
  | some found =>
    simp only [propertyClass, bind, Except.bind] at h
    split at h
    · split at h <;> cases h
      rfl
    · cases h

theorem readProperty_carries (h : Closing behind) (hflags : f.Alike same g)
    (hblanks : f.verbose = false) (negated : Bool) (text : List Char) :
    CarriesOn behind text.length (Same same) (readProperty f negated text)
      (readProperty g negated (text ++ behind)) := by
  have hblanks' : g.verbose = false := hflags.verbose ▸ hblanks
  cases text with
  | nil =>
    rcases h.eq with rfl | ⟨more, rfl⟩
    · simp only [readProperty, skip, hblanks, hblanks']
      exact .refused _ _
    · rw [List.nil_append, readProperty_letter hblanks' negated (by decide) (by decide)]
      simp only [readProperty, skip, hblanks]
      refine Carries.of_error fun x hx hmore => ?_
      rw [propertyClass_eq hx, (List.cons.inj hmore).2]
      exact List.mem_cons_self
  | cons c rest =>
    by_cases hbrace : c = '{'
    · subst hbrace
      rw [List.cons_append, readProperty_brace hblanks, readProperty_brace hblanks']
      have hle := length_dropWhile_le (· != '}') rest
      cases hafter : rest.dropWhile (· != '}') with
      | nil =>
        refine Carries.of_error fun x hx hmore => ?_
        rw [(takeWhile_open hafter behind).2, hmore] at hx
        cases hx
      | cons d after =>
        obtain ⟨htake, hdrop⟩ := takeWhile_stopped hafter behind
        rw [htake, hdrop, ← List.cons_append]
        rw [hafter, List.length_cons] at hle
        refine behindMark_carries h (by decide) _ fun after' heq =>
          propertyClass_carries hflags negated _ ?_
        rw [← (List.cons.inj heq).2, List.length_cons]
        omega
    · by_cases hslash : c = '\\'
      · subst hslash
        simp only [readProperty, skip, hblanks, hblanks']
        exact .refused _ _
      · rw [List.cons_append, readProperty_letter hblanks negated hbrace hslash,
          readProperty_letter hblanks' negated hbrace hslash]
        exact propertyClass_carries hflags negated _ (Nat.le_succ _)

def namedEdge (name rest : List Char) : Reading (WordEdge × List Char) :=
  match String.ofList name with
  | "start" => .ok (.start, rest)
  | "end" => .ok (.stop, rest)
  | "start-half" => .ok (.startHalf, rest)
  | "end-half" => .ok (.stopHalf, rest)
  | _ => .error .escape

def isEdgeChar (c : Char) : Bool := c.isAlpha || c == '-'

theorem readWordEdge_named (hblanks : f.verbose = false) {c : Char} (hc : isEdgeChar c)
    (rest : List Char) :
    readWordEdge f ('{' :: c :: rest) =
      behindMark '}' .escape (namedEdge ((c :: rest).takeWhile isEdgeChar))
        ((c :: rest).dropWhile isEdgeChar) := by
  have hc' : (c.isAlpha || c == '-') = true := hc
  simp only [readWordEdge, hblanks, skip_false, hc', if_true]
  rw [show (fun c : Char => c.isAlpha || c == '-') = isEdgeChar from rfl,
    takeRun_eq (by simp only [List.length_cons]; omega)]
  generalize (c :: rest).takeWhile isEdgeChar = name
  cases (c :: rest).dropWhile isEdgeChar with
  | nil => rfl
  | cons d rest =>
    by_cases hd : d = '}'
    · subst hd
      rfl
    · simp [behindMark, hd]

theorem readWordEdge_plain (hblanks : f.verbose = false) {text : List Char}
    (h : ∀ rest, text = '{' :: rest → ∃ c ∈ rest.head?, isEdgeChar c = false) :
    readWordEdge f text = .ok (.boundary, text) := by
  unfold readWordEdge
  split
  · next inside =>
    obtain ⟨c, hc, hplain⟩ := h inside rfl
    obtain ⟨rest, rfl⟩ := List.head?_eq_some_iff.1 hc
    have hplain' : (c.isAlpha || c == '-') = false := hplain
    simp [hblanks, skip_false, hplain']
  · rfl

theorem namedEdge_carries (name : List Char) {rest : List Char} {bound : Nat}
    (h : rest.length ≤ bound) :
    CarriesOn behind bound Eq (namedEdge name rest) (namedEdge name (rest ++ behind)) := by
  unfold namedEdge
  split <;> first | exact .ok ⟨rfl, rfl, h⟩ | exact .refused _ _

theorem readWordEdge_carries (h : Closing behind) (hblanks : f.verbose = false)
    (hblanks' : g.verbose = false) (text : List Char) :
    CarriesOn behind text.length Eq (readWordEdge f text) (readWordEdge g (text ++ behind)) := by
  have hedge := h.fails (p := isEdgeChar) (by decide)
  rcases Classical.em (∃ rest, text = '{' :: rest) with ⟨rest, rfl⟩ | hbrace
  · cases rest with
    | nil =>
      have hopen : readWordEdge f ['{'] = .error .escape := by simp [readWordEdge, hblanks, skip]
      rw [hopen]
      rcases h.eq with rfl | ⟨more, rfl⟩
      · rw [List.append_nil]
        simp only [readWordEdge, hblanks', skip]
        exact .refused _ _
      · refine Carries.of_error fun x hx hmore => ?_
        rw [List.cons_append, List.nil_append, readWordEdge_plain hblanks' fun rest heq =>
          ⟨')', by rw [← (List.cons.inj heq).2]; rfl, by decide⟩, hmore] at hx
        cases hx
        exact List.mem_cons_of_mem _ List.mem_cons_self
    | cons c rest =>
      rw [List.cons_append, List.cons_append]
      by_cases hc : isEdgeChar c
      · rw [readWordEdge_named hblanks hc, readWordEdge_named hblanks' hc, ← List.cons_append,
          takeWhile_closing hedge, dropWhile_closing hedge]
        refine behindMark_carries h (by decide) _ fun after hafter => namedEdge_carries _ ?_
        have hle := length_dropWhile_le isEdgeChar (c :: rest)
        rw [hafter] at hle
        simp only [List.length_cons] at hle ⊢
        omega
      · have hplain (more : List Char) : ∀ rest', '{' :: c :: more = '{' :: rest' →
            ∃ c ∈ rest'.head?, isEdgeChar c = false := by
          rintro _ ⟨⟩
          exact ⟨c, rfl, Bool.eq_false_iff.2 hc⟩
        rw [readWordEdge_plain hblanks (hplain _), readWordEdge_plain hblanks' (hplain _)]
        exact .ok ⟨rfl, rfl, Nat.le_refl _⟩
  · rw [not_exists] at hbrace
    have hbrace' := h.not_starts (by decide) hbrace
    rw [readWordEdge_plain hblanks fun rest heq => absurd heq (hbrace rest),
      readWordEdge_plain hblanks' fun rest heq => absurd heq (hbrace' rest)]
    exact .ok ⟨rfl, rfl, Nat.le_refl _⟩

theorem CarriesOn.within {α β γ δ : Type} {bound bound' : Nat} {V : α → β → Prop} {W : γ → δ → Prop}
    {x : Reading (α × List Char)} {y : Reading (β × List Char)} (h : CarriesOn behind bound V x y)
    (f : α → γ) (g : β → δ) (hW : ∀ a b, V a b → W (f a) (g b)) (hle : bound ≤ bound') :
    CarriesOn behind bound' W (x >>= fun r => .ok (f r.1, r.2))
      (y >>= fun r => .ok (g r.1, r.2)) := by
  refine h.bind (fun a b hon => .ok ⟨hW _ _ hon.1, hon.2.1, Nat.le_trans hon.2.2 hle⟩)
    fun _ b hlost d hd => ?_
  cases hd
  exact hlost

theorem Primitive.Alike.refl (same : Prop) (p : Primitive) : p.Alike same p := by
  cases p with
  | literal => exact ⟨rfl, rfl⟩
  | set | look => exact fun _ => rfl

theorem readEscape_carries (h : Closing behind) (hflags : f.Alike same g)
    (hblanks : f.verbose = false) (text : List Char) :
    CarriesOn behind text.length (Primitive.Alike same) (readEscape f text)
      (readEscape g (text ++ behind)) := by
  have hblanks' : g.verbose = false := hflags.verbose ▸ hblanks
  cases text with
  | nil =>
    rcases h.eq with rfl | ⟨more, rfl⟩
    · exact .refused _ _
    · exact .past fun hmore => by simp [(List.cons.inj hmore).2, spoiled]
  | cons c rest =>
    have hliteral (d : Char) : CarriesOn behind (rest.length + 1) (Primitive.Alike same)
        (.ok (.literal d false, rest)) (.ok (.literal d false, rest ++ behind)) :=
      .ok ⟨⟨rfl, rfl⟩, rfl, Nat.le_succ _⟩
    have hlook {l m : Look} (hl : Same same l m) :
        CarriesOn behind (rest.length + 1) (Primitive.Alike same)
          (.ok (.look l, rest)) (.ok (.look m, rest ++ behind)) := .ok ⟨hl, rfl, Nat.le_succ _⟩
    have hword (edge : WordEdge) : Same same (Look.word edge f.unicode) (.word edge g.unicode) :=
      fun _ => by rw [hflags.unicode]
    have hhex (count : Nat) : CarriesOn behind (rest.length + 1) (Primitive.Alike same)
        (readHex f count rest) (readHex g count (rest ++ behind)) :=
      (readHex_carries h hblanks hblanks' count rest).onward
        (fun a b heq => heq ▸ .refl same a) (Nat.le_succ _)
    have hproperty (negated : Bool) : CarriesOn behind (rest.length + 1) (Primitive.Alike same)
        (readProperty f negated rest >>= fun x => .ok (.set x.1, x.2))
        (readProperty g negated (rest ++ behind) >>= fun x => .ok (.set x.1, x.2)) :=
      (readProperty_carries h hflags hblanks negated rest).within Primitive.set
        Primitive.set (fun _ _ hs => hs) (Nat.le_succ _)
    have hclass (letter : Char) : CarriesOn behind (rest.length + 1) (Primitive.Alike same)
        (do .ok (.set (← perlSet f letter), rest))
        (do .ok (.set (← perlSet g letter), rest ++ behind)) :=
      (perlSet_carries hflags letter fun _ _ => False).bind
        (fun _ _ hs => .ok ⟨hs, rfl, Nat.le_succ _⟩) fun _ _ hlost => hlost.elim
    have hedge : CarriesOn behind (rest.length + 1) (Primitive.Alike same)
        (readWordEdge f rest >>= fun x => .ok (.look (.word x.1 f.unicode), x.2))
        (readWordEdge g (rest ++ behind) >>= fun x => .ok (.look (.word x.1 g.unicode), x.2)) :=
      (readWordEdge_carries h hblanks hblanks' rest).within
        (fun edge => Primitive.look (.word edge f.unicode))
        (fun edge => Primitive.look (.word edge g.unicode)) (fun edge _ heq => heq ▸ hword edge)
        (Nat.le_succ _)
    simp only [readEscape, List.cons_append, List.length_cons]
    split
    case h_1 => exact hhex 2
    case h_2 => exact hhex 4
    case h_3 => exact hhex 8
    case h_4 | h_5 => exact hproperty _
    case h_6 | h_7 | h_8 | h_9 | h_10 | h_11 => exact hclass _
    case h_12 | h_13 | h_14 | h_15 | h_16 | h_17 => exact hliteral _
    case h_18 | h_19 => exact hlook fun _ => rfl
    case h_20 => exact hedge
    case h_21 | h_22 | h_23 => exact hlook (hword _)
    case h_24 =>
      split
      · exact hliteral c
      · split <;> exact .refused _ _

end escapes

end RuleLexer.Regex
