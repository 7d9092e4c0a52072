import RuleLexer.CommandLine.Request
import RuleLexer.Proofs.Binding

/-! Arguments as the items that they are read as. How a command line is read does not depend on what
was asked for so far, so that it can be told apart from what its items ask for. The file that is
named has a name, and a switch in front of a command line that does without it asks for what it
stands for and nothing else. -/
namespace RuleLexer.CommandLine

inductive Item
  | file (path : String)
  | switch (s : Switch)
  | setting (s : Setting) (value : String)

inductive Reads : List String → List Item → Prop
  | nil : Reads [] []
  | files (paths : List String) : Reads ("--" :: paths) (paths.map .file)
  | file {text path : String} {rest : List String} {items : List Item} (plain : text ≠ "--")
      (read : Argument.ofText text = .ok (.file path)) (later : Reads rest items) :
      Reads (text :: rest) (.file path :: items)
  | switch {text : String} {s : Switch} {rest : List String} {items : List Item}
      (plain : text ≠ "--") (read : Argument.ofText text = .ok (.switch s))
      (later : Reads rest items) : Reads (text :: rest) (.switch s :: items)
  | joined {text value : String} {s : Setting} {rest : List String} {items : List Item}
      (plain : text ≠ "--") (read : Argument.ofText text = .ok (.setting s (some value)))
      (later : Reads rest items) : Reads (text :: rest) (.setting s value :: items)
  | apart {text value : String} {s : Setting} {rest : List String} {items : List Item}
      (plain : text ≠ "--") (read : Argument.ofText text = .ok (.setting s none))
      (isValue : Argument.isValue value = true) (later : Reads rest items) :
      Reads (text :: value :: rest) (.setting s value :: items)

namespace Draft
variable {d d' : Draft} {s : Switch} {arguments : List String} {items : List Item}

def take (d : Draft) : Item → Except Refusal Draft
  | .file path => d.takeFile path
  | .switch s => d.takeSwitch s
  | .setting s value => d.takeSetting s value

theorem foldlM_take_cons {item : Item} : (item :: items).foldlM take d = .ok d' ↔
    ∃ d₁, d.take item = .ok d₁ ∧ items.foldlM take d₁ = .ok d' := by
  rw [List.foldlM_cons, bind_ok]

theorem takeAll_of_reads (h : Reads arguments items) (d : Draft) :
    takeAll d arguments = items.foldlM take d := by
  induction h generalizing d with
  | nil => rfl
  | files paths =>
    rw [takeAll, if_pos rfl, List.foldlM_map]
    rfl
  | file plain read later ih | switch plain read later ih | joined plain read later ih =>
    simp only [takeAll, if_neg plain, read, List.foldlM_cons, ih, take]
  | apart plain read isValue later ih =>
    simp only [takeAll, if_neg plain, read, if_pos isValue, List.foldlM_cons, ih, take]

theorem exists_reads {x : Except Refusal Draft} {rest : List String} {item : Item}
    (h : (x >>= fun d => takeAll d rest) = .ok d')
    (ih : ∀ d, takeAll d rest = .ok d' → ∃ items, Reads rest items)
    (front : ∀ {items}, Reads rest items → Reads arguments (item :: items)) :
    ∃ items, Reads arguments items := by
  obtain ⟨d₁, -, hrest⟩ := bind_ok.1 h
  obtain ⟨items, later⟩ := ih d₁ hrest
  exact ⟨_, front later⟩

theorem reads_of_takeAll (h : takeAll d arguments = .ok d') : ∃ items, Reads arguments items := by
  induction d, arguments using takeAll.induct with
  | case1 d => exact ⟨[], .nil⟩
  | case2 d paths => exact ⟨_, .files paths⟩
  | case3 d text rest plain refusal read => simp [takeAll, plain, read] at h
  | case4 d text rest plain path read ih =>
    simp only [takeAll, if_neg plain, read] at h
    exact exists_reads h ih (.file plain read)
  | case5 d text rest plain s read ih =>
    simp only [takeAll, if_neg plain, read] at h
    exact exists_reads h ih (.switch plain read)
  | case6 d text rest plain s value read ih =>
    simp only [takeAll, if_neg plain, read] at h
    exact exists_reads h ih (.joined plain read)
  | case7 d text plain s read => simp [takeAll, plain, read] at h
  | case8 d text plain s read value rest isValue ih =>
    simp only [takeAll, if_neg plain, read, if_pos isValue] at h
    exact exists_reads h ih (.apart plain read isValue)
  | case9 d text plain s read value rest isValue => simp [takeAll, plain, read, isValue] at h

theorem takeAll_ok_iff : takeAll d arguments = .ok d' ↔
    ∃ items, Reads arguments items ∧ items.foldlM take d = .ok d' := by
  constructor
  · intro h
    obtain ⟨items, hreads⟩ := reads_of_takeAll h
    exact ⟨items, hreads, takeAll_of_reads hreads d ▸ h⟩
  · rintro ⟨items, hreads, htaken⟩
    exact (takeAll_of_reads hreads d).trans htaken

theorem foldlM_take_keeps {P : Draft → Prop}
    (keeps : ∀ {d d' item}, P d → take d item = .ok d' → P d') (h : P d)
    (htaken : items.foldlM take d = .ok d') : P d' := by
  induction items generalizing d with
  | nil =>
    cases htaken
    exact h
  | cons item items ih =>
    obtain ⟨d₁, hitem, hitems⟩ := foldlM_take_cons.1 htaken
    exact ih (keeps h hitem) hitems

theorem takeFile_ok {path : String} (h : d.takeFile path = .ok d') :
    path ≠ "" ∧ d' = { d with file? := some path } := by
  rw [takeFile] at h
  split at h
  · cases h
  · next hpath =>
    obtain ⟨file?, hfile, hd⟩ := bind_ok.1 h
    cases hd
    cases hd : d.file? with
    | some old =>
      rw [hd] at hfile
      cases hfile
    | none =>
      rw [hd] at hfile
      cases hfile
      exact ⟨fun hempty => hpath (hempty ▸ rfl), rfl⟩

theorem takeSwitch_ok (h : d.takeSwitch s = .ok d') :
    s ∉ d.switches ∧ d' = { d with switches := s :: d.switches } := by
  have hnew : (if d.switches.contains s then Except.error Refusal.wrong
      else .ok { d with switches := s :: d.switches }) = .ok d' := by
    cases s with
    | help | version => cases h
    | verify | scores | traceFallback => exact h
  split at hnew
  · cases hnew
  · next hold =>
    cases hnew
    exact ⟨fun hmem => hold (List.contains_iff_mem.2 hmem), rfl⟩

theorem takeSetting_ok {t : Setting} {value : String} (h : d.takeSetting t value = .ok d') :
    d'.file? = d.file? ∧ d'.switches = d.switches := by
  cases t with
  | assignment =>
    cases h
    exact ⟨rfl, rfl⟩
  | lexer | style | level =>
    obtain ⟨_, -, hd⟩ := bind_ok.1 h
    cases hd
    exact ⟨rfl, rfl⟩
  | format =>
    obtain ⟨_, -, h⟩ := bind_ok.1 h
    obtain ⟨_, -, hd⟩ := bind_ok.1 h
    cases hd
    exact ⟨rfl, rfl⟩

theorem file_ne_empty (htaken : takeAll {} arguments = .ok d') : d'.file? ≠ some "" := by
  obtain ⟨items, -, hitems⟩ := takeAll_ok_iff.1 htaken
  refine foldlM_take_keeps (P := fun d => d.file? ≠ some "") ?_ (by simp) hitems
  intro d d' item h hitem
  cases item with
  | file path =>
    obtain ⟨hpath, rfl⟩ := takeFile_ok hitem
    exact fun hempty => hpath (Option.some.inj hempty)
  | switch s =>
    obtain ⟨-, rfl⟩ := takeSwitch_ok hitem
    exact h
  | setting t value => exact (takeSetting_ok hitem).1 ▸ h

theorem mem_switches (h : s ∈ d.switches) (hitems : items.foldlM take d = .ok d') :
    s ∈ d'.switches := by
  refine foldlM_take_keeps (P := fun d => s ∈ d.switches) ?_ h hitems
  intro d d' item h hitem
  cases item with
  | file path =>
    obtain ⟨-, rfl⟩ := takeFile_ok hitem
    exact h
  | switch t =>
    obtain ⟨-, rfl⟩ := takeSwitch_ok hitem
    exact List.mem_cons_of_mem _ h
  | setting t value => exact (takeSetting_ok hitem).2 ▸ h

def also (d : Draft) (s : Switch) : Draft := { d with switches := d.switches ++ [s] }

theorem bind_also {α : Type} (x : Except Refusal α) (f : α → Draft) :
    (x >>= fun a => .ok ((f a).also s)) = (x >>= fun a => .ok (f a)).map fun d => d.also s := by
  cases x <;> rfl

theorem takeFile_also (path : String) :
    (d.also s).takeFile path = (d.takeFile path).map fun d => d.also s := by
  rw [takeFile, takeFile]
  split
  · rfl
  · exact bind_also (once d.file? path) fun file? => { d with file? }

theorem takeSetting_also (t : Setting) (value : String) :
    (d.also s).takeSetting t value = (d.takeSetting t value).map fun d => d.also s := by
  cases t with
  | assignment => rfl
  | lexer => exact bind_also (once d.lexer? value) fun lexer? => { d with lexer? }
  | style => exact bind_also (once d.style? value) fun style? => { d with style? }
  | level => exact bind_also (once d.level? value) fun level? => { d with level? }
  | format =>
    rw [takeSetting, takeSetting]
    cases readFormat value with
    | error refusal => rfl
    | ok format => exact bind_also (once d.format? format) fun format? => { d with format? }

theorem take_also {item : Item} (h : d.take item = .ok d') (hs : item ≠ .switch s) :
    (d.also s).take item = .ok (d'.also s) := by
  cases item with
  | file path => rw [take, takeFile_also, show d.takeFile path = .ok d' from h, Except.map]
  | setting t value =>
    rw [take, takeSetting_also, show d.takeSetting t value = .ok d' from h, Except.map]
  | switch t =>
    obtain ⟨hnew, rfl⟩ := takeSwitch_ok h
    have hother : t ≠ s := fun hsame => hs (congrArg Item.switch hsame)
    have habsent : ¬(d.also s).switches.contains t = true := by simp [also, hnew, hother]
    cases t with
    | help | version => cases h
    | verify | scores | traceFallback => exact if_neg habsent

theorem foldlM_take_also (h : items.foldlM take d = .ok d') (hs : s ∉ d'.switches) :
    items.foldlM take (d.also s) = .ok (d'.also s) := by
  induction items generalizing d with
  | nil =>
    cases h
    rfl
  | cons item items ih =>
    obtain ⟨d₁, hitem, hitems⟩ := foldlM_take_cons.1 h
    have hother : item ≠ .switch s := by
      rintro rfl
      obtain ⟨-, rfl⟩ := takeSwitch_ok hitem
      exact hs (mem_switches List.mem_cons_self hitems)
    exact foldlM_take_cons.2 ⟨_, take_also hitem hother, ih hitems⟩

end Draft

namespace Request
variable {arguments : List String} {request : Request}

theorem ofArguments_ok_iff : ofArguments arguments = .ok request ↔
    ∃ d, Draft.takeAll {} arguments = .ok d ∧ ofDraft d = .ok request := bind_ok

theorem ofDraft_ok {d : Draft} (h : ofDraft d = .ok request) :
    d.file? = some request.file ∧ d.switches.contains .verify = request.verify := by
  rw [ofDraft] at h
  split at h
  · cases h
  · next file hfile =>
    split at h
    · cases h
    · cases h
      exact ⟨hfile, rfl⟩

theorem file_ne_empty (h : ofArguments arguments = .ok request) : request.file ≠ "" := by
  obtain ⟨d, htaken, hdraft⟩ := ofArguments_ok_iff.1 h
  intro hempty
  exact Draft.file_ne_empty htaken ((ofDraft_ok hdraft).1.trans (congrArg some hempty))

theorem ofDraft_also {d : Draft} (h : ofDraft d = .ok request) :
    ofDraft (d.also .verify) = .ok { request with verify := true } := by
  have hscores : (d.also .verify).switches.contains .scores = d.switches.contains .scores := by
    simp [Draft.also]
  have htrace : (d.also .verify).switches.contains .traceFallback =
      d.switches.contains .traceFallback := by simp [Draft.also]
  have hverify : (d.also .verify).switches.contains .verify = true := by simp [Draft.also]
  obtain ⟨file, hfile⟩ : ∃ file, d.file? = some file := ⟨_, (ofDraft_ok h).1⟩
  have hfile' : (d.also .verify).file? = some file := hfile
  simp only [ofDraft, hfile] at h
  simp only [ofDraft, hfile', hscores, htrace, hverify]
  split at h
  · cases h
  · next hlexer =>
    cases h
    exact if_neg hlexer

theorem ofArguments_verify (h : ofArguments arguments = .ok request)
    (hverify : request.verify = false) :
    ofArguments ("--verify" :: arguments) = .ok { request with verify := true } := by
  obtain ⟨d, htaken, hdraft⟩ := ofArguments_ok_iff.1 h
  obtain ⟨items, hreads, hitems⟩ := Draft.takeAll_ok_iff.1 htaken
  have hnew : Switch.verify ∉ d.switches := by
    rw [← List.contains_iff_mem, (ofDraft_ok hdraft).2, hverify]
    exact Bool.false_ne_true
  refine ofArguments_ok_iff.2 ⟨d.also .verify, ?_, ofDraft_also hdraft⟩
  refine Draft.takeAll_ok_iff.2 ⟨_, .switch (by decide) rfl hreads, ?_⟩
  exact Draft.foldlM_take_cons.2 ⟨_, rfl, Draft.foldlM_take_also hitems hnew⟩

end Request

end RuleLexer.CommandLine
