import RuleLexer.Proofs.Php
import RuleLexer.Proofs.Retagging

/-! Options of PHP. Three options are read, and what they say is all that a lexer takes from them:
where it starts, which names of functions are told apart, and what was wrong with the values. The
chapters to leave out are the items of a list, which stand between blanks and commas; so a chapter
can be named there only when there is no blank in its name. -/
namespace RuleLexer
open RuleLexer.Text RuleLexer.Unicode

/-! What is read off options -/

namespace Text
variable {isBetween : Char → Bool}

theorem pieces_append {separator : Char} (h : isBetween separator) (before behind : List Char) :
    pieces isBetween (before ++ separator :: behind) =
      pieces isBetween before ++ pieces isBetween behind := by
  have hfrom : ∀ piece, piecesFrom isBetween piece (before ++ separator :: behind) =
      piecesFrom isBetween piece before ++ pieces isBetween behind := by
    induction before with
    | nil =>
      intro piece
      rw [List.nil_append, piecesFrom, piecesFrom, if_pos h]
      split <;> rfl
    | cons c before ih =>
      intro piece
      rw [List.cons_append, piecesFrom, piecesFrom]
      split
      · split
        · exact ih []
        · rw [ih [], List.cons_append]
      · exact ih (c :: piece)
  exact hfrom []

end Text

namespace Options

theorem items_append (first second : String) :
    items (first ++ "," ++ second) = items first ++ items second := by
  have htext : (first ++ "," ++ second).toList = first.toList ++ ',' :: second.toList := by simp
  rw [items, items, items, htext, pieces_append rfl, List.map_append]

theorem items_intercalate (lists : List String) :
    items (String.intercalate "," lists) = lists.flatMap items := by
  induction lists with
  | nil => rfl
  | cons list rest ih =>
    cases rest with
    | nil => simp
    | cons next rest =>
      rw [String.intercalate_cons_cons, items_append, ih]
      rfl

variable (o : Options) (name : String)

/-- The truth value of an option, or another one where it is not set or cannot be read. -/
def reads (otherwise : Bool) : Bool := ((o.get? name).bind truthValue?).getD otherwise

def unreadable : List OptionError :=
  ((o.get? name).filter fun value => (truthValue? value).isNone).toList.map fun value =>
    .invalidValue name value "one of 1, yes, true, on, 0, no, false, off"

theorem reads_congr {o other : Options} {name : String} (h : other.get? name = o.get? name)
    (otherwise : Bool) : other.reads name otherwise = o.reads name otherwise := by
  rw [reads, reads, h]

theorem unreadable_congr {o other : Options} {name : String} (h : other.get? name = o.get? name) :
    other.unreadable name = o.unreadable name := by
  rw [unreadable, unreadable, h]

end Options

namespace OptionReport

theorem flag_eq (r : OptionReport) (name : String) (otherwise : Bool) :
    r.flag name otherwise = (r.options.reads name otherwise,
      { r with latest := (r.options.unreadable name).reverse ++ r.latest }) := by
  rw [flag, Options.flag?, Options.read?, Options.reads, Options.unreadable]
  cases r.options.get? name with
  | none => rfl
  | some value => cases hvalue : Options.truthValue? value <;> simp [resolve, add, Option.filter, hvalue]

theorem foldl_add {α : Type} (r : OptionReport) (f : α → OptionError) (list : List α) :
    list.foldl (fun r a => r.add (f a)) r =
      { r with latest := (list.map f).reverse ++ r.latest } := by
  induction list generalizing r with
  | nil => rfl
  | cons a list ih =>
    rw [List.foldl_cons, ih]
    simp [add]

end OptionReport

namespace Language.Php

/-! What the options say -/

def disabledItems (o : Options) : List String :=
  (o.list? "disabledmodules").getD [undescribed]

/-- What is wrong with the options: truth values that cannot be read, and items that name no
chapter. -/
def complaints (o : Options) : List OptionError :=
  o.unreadable "startinline" ++ o.unreadable "funcnamehighlighting" ++
    ((disabledItems o).filter fun item => !chapterNames.contains item).map fun item =>
      .unknownValue "disabledmodules" item chapterNames

def Enabled (disabled : List String) (text : String) : Prop :=
  ∃ c ∈ chapters, c.name ∉ disabled ∧ text ∈ c.functions

instance (disabled : List String) (text : String) : Decidable (Enabled disabled text) :=
  inferInstanceAs (Decidable (∃ c ∈ chapters, c.name ∉ disabled ∧ text ∈ c.functions))

def filterOf (o : Options) : Option TokenFilter :=
  if o.reads "funcnamehighlighting" true then
    some (markFunctions (functionsWithout ((disabledItems o).filter chapterNames.contains)))
  else none

def draftOf (o : Options) (t : Table) : LexerDraft where
  info := info
  table := t
  initial? := if o.reads "startinline" false then some ["root", "php"] else none
  filter? := filterOf o
  optionErrors := complaints o

theorem lexer_eq (o : Options) : lexer o = (do
    (complaints o).forM fun e => Build.note (.optionIgnored info.name e)
    let t ← .table table
    .lexer (draftOf o t)) := by
  have hchapters (r : OptionReport) : disabledChapters r =
      ((disabledItems r.options).filter chapterNames.contains, { r with
        latest := (((disabledItems r.options).filter fun item =>
          !chapterNames.contains item).map fun item =>
            .unknownValue "disabledmodules" item chapterNames).reverse ++ r.latest }) := by
    rw [disabledChapters, OptionReport.foldl_add]
    rfl
  rw [lexer]
  simp only [OptionReport.flag_eq, hchapters, List.append_nil, ← List.reverse_append,
    Build.options, OptionReport.errors, List.reverse_reverse]
  rfl

def optionNames : List String := ["startinline", "funcnamehighlighting", "disabledmodules"]

theorem lexer_congr {o other : Options} (h : ∀ name ∈ optionNames, other.get? name = o.get? name) :
    lexer other = lexer o := by
  simp only [optionNames, List.forall_mem_cons] at h
  obtain ⟨hinline, hmarks, hdisabled, -⟩ := h
  have hitems : disabledItems other = disabledItems o := by
    rw [disabledItems, disabledItems, Options.list?, Options.list?, hdisabled]
  have hcomplaints : complaints other = complaints o := by
    rw [complaints, complaints, hitems, Options.unreadable_congr hinline,
      Options.unreadable_congr hmarks]
  have hdraft : draftOf other = draftOf o := by
    funext t
    rw [draftOf, draftOf, filterOf, filterOf, hitems, hcomplaints, Options.reads_congr hinline,
      Options.reads_congr hmarks]
  rw [lexer_eq, lexer_eq, hcomplaints, hdraft]

/-! The lexer -/

section lexers
variable (o : Options) {t : Table}

def initialOf (o : Options) : List StateId := if o.reads "startinline" false then [0, 1] else [0]

def lexerOf (t : Table) (o : Options) : Lexer := ⟨info, t, initialOf o, filterOf o, complaints o⟩

def plainOf (t : Table) (o : Options) : Lexer := ⟨info, t, initialOf o, none, []⟩

theorem initialNames_lexerOf (hnames : t.names = table.names) : (lexerOf t o).initialNames =
    if o.reads "startinline" false then ["root", "php"] else ["root"] := by
  have hname : t.stateName? 0 = some "root" ∧ t.stateName? 1 = some "php" := by
    rw [TableOf.stateName?, TableOf.stateName?, hnames]
    exact ⟨rfl, rfl⟩
  rw [LexerOf.initialNames, lexerOf, initialOf]
  split <;> simp [LexerOf.namesOf, hname]

theorem yields_lexer (htable : table.compile = .ok t) (hnames : t.names = table.names)
    (hroot : t.root = 0) : (lexer o).Yields (lexerOf t o) := by
  have hcompile : (draftOf o t).compile = .ok (lexerOf t o) := by
    have hresolve : t.resolve "<initial stack>" ["root", "php"] = .ok [0, 1] := by
      show ["root", "php"].mapM (TableDraft.lookup t.names "<initial stack>") = _
      rw [hnames]
      rfl
    rw [LexerDraft.compile, draftOf, lexerOf, initialOf]
    cases o.reads "startinline" false with
    | false =>
      show Except.ok (LexerOf.mk info t [t.root] _ _) = _
      rw [hroot]
      rfl
    | true =>
      show (t.resolve "<initial stack>" ["root", "php"] >>= _) = _
      rw [hresolve]
      rfl
  have hnotes (errors : List OptionError) :
      (errors.forM fun e => Build.note (.optionIgnored info.name e)).Yields () := by
    induction errors with
    | nil => exact fun _ => rfl
    | cons e errors ih => exact Build.Yields.bind (a := ()) (fun _ => rfl) ih
  rw [lexer_eq]
  exact (hnotes _).bind ((Build.yields_table htable).bind (Build.yields_lexer hcompile))

theorem mem_functionsWithout {disabled : List String} {text : String} :
    text ∈ functionsWithout (disabled.filter chapterNames.contains) ↔ Enabled disabled text := by
  have hitems : ∀ c ∈ chapters,
      (!(disabled.filter chapterNames.contains).contains c.name) = true ↔ c.name ∉ disabled := by
    intro c hc
    have hname : c.name ∈ chapterNames := List.mem_map_of_mem hc
    simp [hname]
  simp only [functionsWithout, List.mem_flatMap, List.mem_filter, Enabled]
  exact exists_congr fun c => by
    rw [and_assoc]
    exact and_congr_right fun hc => and_congr_left fun _ => hitems c hc

theorem idempotent_markFunctions (functions : List String) (category : Category) (text : String) :
    markFunctions functions (markFunctions functions category text) text =
      markFunctions functions category text := by
  rw [markFunctions, markFunctions]
  split <;> simp_all

theorem tokens_lexerOf (text : String) : (lexerOf t o).tokens text =
    ((plainOf t o).tokens text).map fun token =>
      if o.reads "funcnamehighlighting" true ∧ token.category = .nameOther ∧
          Enabled (disabledItems o) token.text then
        token.retag .nameBuiltin
      else token := by
  let noted : Lexer := { plainOf t o with optionErrors := complaints o }
  have hplain : noted.tokens text = (plainOf t o).tokens text :=
    Run.tokens_withErrors (plainOf t o) (complaints o) _ _ _
  rw [← hplain]
  cases hmarks : o.reads "funcnamehighlighting" true with
  | false =>
    have hlexer : lexerOf t o = noted := by
      rw [lexerOf, filterOf, hmarks]
      rfl
    simp [hlexer]
  | true =>
    let functions := functionsWithout ((disabledItems o).filter chapterNames.contains)
    have hlexer : lexerOf t o = noted.withFilter (some (markFunctions functions)) := by
      rw [lexerOf, filterOf, hmarks]
      rfl
    have hfilter := Run.tokens_withFilter noted (markFunctions functions)
      (.inl (idempotent_markFunctions functions)) (initialOf o) text.toList 0
    rw [hlexer]
    refine hfilter.trans (List.map_congr_left fun token _ => ?_)
    have hmarked : (token.category = .nameOther ∧ functions.contains token.text) ↔
        token.category = .nameOther ∧ Enabled (disabledItems o) token.text := by
      rw [List.contains_iff_mem, mem_functionsWithout]
    rw [markFunctions]
    by_cases h : token.category = .nameOther ∧ functions.contains token.text
    · rw [if_pos h, if_pos ⟨rfl, hmarked.1 h⟩]
    · rw [if_neg h, if_neg fun h' => h (hmarked.2 h'.2)]
      rfl

end lexers

/-- The options decide all of a lexer and of its tokens: a lexer is there whatever they are, and it
gives the tokens of the table, from the states and with the names marked that the options ask for.
What is wrong with them it says in order, and no other option makes a difference. -/
theorem options_determine_tokens : ∃ t : Table, table.compile = .ok t ∧ ∀ o : Options, ∃ l : Lexer,
    (lexer o).outcome.1 = .ok l ∧ l.table = t ∧
    l.initialNames = (if o.reads "startinline" false then ["root", "php"] else ["root"]) ∧
    l.optionErrors = complaints o ∧
    (∀ text : String, l.tokens text =
      ((⟨info, t, l.initial, none, []⟩ : Lexer).tokens text).map fun token =>
        if o.reads "funcnamehighlighting" true ∧ token.category = .nameOther ∧
            Enabled (disabledItems o) token.text then
          token.retag .nameBuiltin
        else token) ∧
    ∀ other : Options, (∀ name ∈ optionNames, other.get? name = o.get? name) →
      lexer other = lexer o := by
  obtain ⟨t, htable, hnames, hroot⟩ := exists_table
  exact ⟨t, htable, fun o => ⟨lexerOf t o, (yields_lexer o htable hnames hroot).outcome, rfl,
    initialNames_lexerOf o hnames, rfl, tokens_lexerOf o, fun other h => lexer_congr h⟩⟩

/-! Chapters by their names -/

def naming (chapters : List String) : Options :=
  ({} : Options).set "disabledmodules" (String.intercalate "," chapters)

def hasBlank (name : String) : Bool := name.toList.any isSpace

theorem get?_naming (names : List String) :
    (naming names).get? "disabledmodules" = some (String.intercalate "," names) ∧
      (naming names).get? "startinline" = none ∧
      (naming names).get? "funcnamehighlighting" = none :=
  ⟨rfl, rfl, rfl⟩

theorem items_chapterNames : chapterNames.all fun name =>
    if hasBlank name then !(Options.items name).isEmpty &&
      (Options.items name).all fun item => !chapterNames.contains item
    else Options.items name == [name] := by
  decide +kernel

section chapters
variable {name : String} (hname : name ∈ chapterNames)
include hname

theorem items_of_blank (hblank : hasBlank name) :
    ∀ item ∈ Options.items name, item ∉ chapterNames := by
  have hitems := List.all_eq_true.1 items_chapterNames name hname
  rw [if_pos hblank] at hitems
  intro item hitem
  simpa using List.all_eq_true.1 (Bool.and_eq_true_iff.1 hitems).2 item hitem

theorem items_ne_nil (hblank : hasBlank name) : Options.items name ≠ [] := by
  have hitems := List.all_eq_true.1 items_chapterNames name hname
  rw [if_pos hblank] at hitems
  simpa using (Bool.and_eq_true_iff.1 hitems).1

theorem items_of_solid (hsolid : ¬hasBlank name) : Options.items name = [name] := by
  have hitems := List.all_eq_true.1 items_chapterNames name hname
  rw [if_neg hsolid] at hitems
  exact eq_of_beq hitems

theorem filter_items : (Options.items name).filter (fun item => !chapterNames.contains item) =
    if hasBlank name then Options.items name else [] := by
  split
  · next hblank =>
    exact List.filter_eq_self.2 fun item hitem => by
      simpa using items_of_blank hname hblank item hitem
  · next hsolid => simp [items_of_solid hname hsolid, hname]

theorem mem_items_iff {names : List String} (hnames : ∀ n ∈ names, n ∈ chapterNames) :
    name ∈ names.flatMap Options.items ↔ name ∈ names ∧ ¬hasBlank name := by
  constructor
  · intro hmem
    obtain ⟨n, hn, hitem⟩ := List.mem_flatMap.1 hmem
    by_cases hblank : hasBlank n
    · exact absurd hname (items_of_blank (hnames n hn) hblank name hitem)
    · rw [items_of_solid (hnames n hn) hblank, List.mem_singleton] at hitem
      exact hitem ▸ ⟨hn, hblank⟩
  · rintro ⟨hmem, hsolid⟩
    refine List.mem_flatMap.2 ⟨name, hmem, ?_⟩
    rw [items_of_solid hname hsolid]
    exact List.mem_singleton_self name

end chapters

theorem disabledItems_naming (names : List String) :
    disabledItems (naming names) = names.flatMap Options.items := by
  rw [disabledItems, Options.list?, (get?_naming names).1]
  exact Options.items_intercalate names

section naming
variable {names : List String} (h : ∀ name ∈ names, name ∈ chapterNames)
include h

theorem filter_flatMap_items :
    (names.flatMap Options.items).filter (fun item => !chapterNames.contains item) =
      (names.filter hasBlank).flatMap Options.items := by
  induction names with
  | nil => rfl
  | cons name names ih =>
    obtain ⟨hname, hnames⟩ := List.forall_mem_cons.1 h
    rw [List.flatMap_cons, List.filter_append, filter_items hname, ih hnames, List.filter_cons]
    split <;> rfl

theorem complaints_naming : complaints (naming names) =
    (names.filter hasBlank).flatMap fun name => (Options.items name).map fun word =>
      .unknownValue "disabledmodules" word chapterNames := by
  obtain ⟨-, hinline, hmarks⟩ := get?_naming names
  rw [complaints, disabledItems_naming, filter_flatMap_items h, List.map_flatMap,
    Options.unreadable, Options.unreadable, hinline, hmarks]
  rfl

theorem complaints_naming_eq_nil :
    complaints (naming names) = [] ↔ ∀ name ∈ names, ¬hasBlank name := by
  rw [complaints_naming h, List.flatMap_eq_nil_iff]
  simp only [List.map_eq_nil_iff, List.mem_filter, and_imp]
  exact forall₂_congr fun name hname =>
    ⟨fun hnil hblank => items_ne_nil (h name hname) hblank (hnil hblank),
      fun hsolid hblank => absurd hblank hsolid⟩

theorem enabled_naming (text : String) : Enabled (disabledItems (naming names)) text ↔
    ∃ c ∈ chapters, (c.name ∈ names → hasBlank c.name) ∧ text ∈ c.functions := by
  rw [disabledItems_naming]
  refine exists_congr fun c => and_congr_right fun hc => and_congr_left fun _ => ?_
  rw [mem_items_iff (List.mem_map_of_mem hc) h, not_and, not_not]

/-- Chapters without a blank in their names are left out when they are named, in any order and
however often; of the others each word is unknown, and their functions are marked as before. -/
theorem named_chapters_left_out : ∃ l : Lexer, (lexer (naming names)).outcome.1 = .ok l ∧
    l.optionErrors = ((names.filter hasBlank).flatMap fun name =>
      (Options.items name).map fun word => .unknownValue "disabledmodules" word chapterNames) ∧
    (l.optionErrors = [] ↔ ∀ name ∈ names, ¬hasBlank name) ∧
    ∀ text : String, l.tokens text =
      ((⟨info, l.table, l.initial, none, []⟩ : Lexer).tokens text).map fun token =>
        if token.category = .nameOther ∧ ∃ c ∈ chapters,
            (c.name ∈ names → hasBlank c.name) ∧ token.text ∈ c.functions then
          token.retag .nameBuiltin
        else token := by
  obtain ⟨t, htable, hnames, hroot⟩ := exists_table
  refine ⟨lexerOf t (naming names), (yields_lexer _ htable hnames hroot).outcome,
    complaints_naming h, complaints_naming_eq_nil h, fun text => ?_⟩
  have hmarks : (naming names).reads "funcnamehighlighting" true = true := by
    rw [Options.reads, (get?_naming names).2.2]
    rfl
  rw [tokens_lexerOf]
  refine List.map_congr_left fun token _ => ?_
  simp only [hmarks, true_and, enabled_naming h]

end naming

theorem named_chapters_left_out_two :
    (∀ name ∈ ["Strings", "Math", "Strings"], name ∈ chapterNames) ∧ ∃ l : Lexer,
      (lexer (naming ["Strings", "Math", "Strings"])).outcome.1 = .ok l ∧ l.optionErrors = [] := by
  have hnames : ∀ name ∈ ["Strings", "Math", "Strings"], name ∈ chapterNames := by decide
  obtain ⟨l, hl, -, herrors, -⟩ := named_chapters_left_out hnames
  exact ⟨hnames, l, hl, herrors.2 (by decide +kernel)⟩

/-- A chapter with a blank in its name is not left out by it: its words are said to be unknown, and
its functions are marked. -/
theorem blank_name_not_left_out : "Error Handling" ∈ chapterNames ∧ ∃ l : Lexer,
    (lexer (naming ["Error Handling"])).outcome.1 = .ok l ∧
    l.optionErrors = [.unknownValue "disabledmodules" "Error" chapterNames,
      .unknownValue "disabledmodules" "Handling" chapterNames] ∧
    ∃ f, l.filter? = some f ∧ f .nameOther "error_log" = .nameBuiltin := by
  obtain ⟨t, htable, hnames, hroot⟩ := exists_table
  let o := naming ["Error Handling"]
  have hvalues : "Error Handling" ∈ chapterNames ∧ complaints o =
      [.unknownValue "disabledmodules" "Error" chapterNames,
        .unknownValue "disabledmodules" "Handling" chapterNames] ∧
      (filterOf o).any fun f => decide (f .nameOther "error_log" = .nameBuiltin) := by
    decide +kernel
  obtain ⟨hname, herrors, hfilter⟩ := hvalues
  obtain ⟨f, hf, hmarked⟩ := (Option.any_eq_true _ _).1 hfilter
  exact ⟨hname, lexerOf t o, (yields_lexer o htable hnames hroot).outcome, herrors, f, hf,
    of_decide_eq_true hmarked⟩

end Language.Php

end RuleLexer
