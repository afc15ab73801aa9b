import ClientBindings.Proofs.Source.Places
import ClientBindings.Proofs.Source.Slices

/-!
# Sites of factory calls

Where the factory calls of a source stand, and what is read of each.

* `Keyed`, `detectOptions_sets`: the option keys that stand in a text.
* `OpensCall`, `callOpening?_eq_some`: the name of a factory and the parenthesis of its call.
* `Closes`, `untilClosed_closes`: the arguments of a call end at the first parenthesis that closes
  none of their own.
* `CallAt`: a call at an offset of a source, by slices of the source and of its masked text.
* `factoryCalls_sites`: the factory calls are those at all offsets, in the order of the offsets.
-/

namespace ClientBindings

namespace Factory

theorem mem_named (factory : Factory) : (factory.name, factory) ∈ named := by
  cases factory <;> decide

theorem name_of_mem_named : ∀ entry ∈ named, entry.1 = entry.2.name := by decide

/-- No factory name starts with another one. -/
theorem named_apart : ∀ m ∈ named, ∀ m' ∈ named, m.1.toList <+: m'.1.toList → m = m' := by decide

theorem name_word (factory : Factory) :
    factory.name.toList ≠ [] ∧ ∀ c ∈ factory.name.toList, Text.isWord c := by
  cases factory <;> exact ⟨by decide, List.all_eq_true.mp (by decide)⟩

end Factory

namespace Source

theorem outsideWord_getLast? {α : Type} (view : α → Char) (before : List α) :
    outsideWord view before.getLast? ↔
      ∀ c ∈ (before.map view).getLast?, Text.isWord c = false := by
  rw [List.getLast?_map]
  cases before.getLast? with
  | none => simp [outsideWord]
  | some last => simp [outsideWord]

/-! ## Option keys -/

/-- The key stands in a text: in no longer word, and with a mark past it and blanks. -/
def Keyed (key text : List Char) : Prop :=
  ∃ before blanks mark after, text = before ++ (key ++ (blanks ++ mark :: after)) ∧
    (∀ c ∈ before.getLast?, Text.isWord c = false) ∧ Blanks blanks ∧
    (mark = ':' ∨ mark = ',' ∨ mark = '}' ∨ mark = ')')

/-- Whether the options have the key. -/
def OptionKey.isSet (options : FactoryOptions) : OptionKey → Bool
  | search => options.search
  | softDelete => options.softDelete
  | acl => options.acl
  | pub => options.isPublic

/-- The options are those whose keys stand in a text. -/
def Sets (options : FactoryOptions) (text : List Char) : Prop :=
  ∀ entry ∈ OptionKey.named, entry.2.isSet options ↔ Keyed entry.1.toList text

theorem optionKeys_apart : ∀ m ∈ OptionKey.named, ∀ m' ∈ OptionKey.named,
    m.1.toList <+: m'.1.toList → m = m' := by decide

theorem optionKeys_words : ∀ entry ∈ OptionKey.named,
    entry.1.toList ≠ [] ∧ ∀ c ∈ entry.1.toList, Text.isWord c := by
  simp only [← List.all_eq_true]
  decide

theorem optionKey?_eq_some {last : Option Char} {text : List Char} {key : OptionKey} {n : Nat} :
    optionKey? last text = some (key, n) ↔ outsideWord id last ∧ ∃ name blanks mark rest,
      (name, key) ∈ OptionKey.named ∧ text = name.toList ++ (blanks ++ [mark]) ++ rest ∧
      Blanks blanks ∧ (mark = ':' ∨ mark = ',' ∨ mark = '}' ∨ mark = ')') ∧
      n = (name.toList ++ (blanks ++ [mark])).length := by
  constructor
  · intro h
    rw [optionKey?] at h
    split at h
    next hlast =>
      simp only [Option.bind_eq_bind, Option.bind_eq_some_iff] at h
      obtain ⟨⟨found, past⟩, hdrop, h⟩ := h
      obtain ⟨name, start, hname, hstart, rfl⟩ := (dropAny?_eq_some optionKeys_apart).mp hdrop
      obtain ⟨blanks, hblanks, hpast⟩ := skipBlanks_start id past
      rw [List.map_id] at hstart hblanks
      split at h
      next mark rest hskip =>
        split at h
        next hmark =>
          rw [hskip] at hpast
          have htext : start ++ past = name.toList ++ (blanks ++ [mark]) ++ rest := by
            rw [hstart, hpast]
            simp
          rw [htext, upTo_append] at h
          obtain ⟨rfl, hn⟩ := Prod.mk.inj (Option.some.inj h)
          exact ⟨hlast, name, blanks, mark, rest, hname, htext, hblanks, hmark, hn.symm⟩
        next => cases h
      next => cases h
    next => cases h
  · rintro ⟨hlast, name, blanks, mark, rest, hname, rfl, hblanks, hmark, rfl⟩
    have hdrop : dropAny? id (name.toList ++ (blanks ++ mark :: rest)) OptionKey.named =
        some (key, blanks ++ mark :: rest) :=
      (dropAny?_eq_some optionKeys_apart).mpr ⟨name, _, hname, List.map_id _, rfl⟩
    have hsolid : ∀ c ∈ (mark :: rest).head?, Text.isBlank c = false := by
      intro c hc
      obtain rfl : mark = c := by simpa using hc
      rcases hmark with rfl | rfl | rfl | rfl <;> decide
    have hskip : skipBlanks id (blanks ++ mark :: rest) = mark :: rest :=
      skipBlanks_eq (by rwa [List.map_id]) hsolid
    have hassoc : name.toList ++ (blanks ++ [mark]) ++ rest =
        name.toList ++ (blanks ++ mark :: rest) := by simp
    rw [optionKey?, if_pos hlast, hassoc, hdrop]
    simp only [Option.bind_eq_bind, Option.bind_some, hskip, if_pos hmark]
    rw [← hassoc, upTo_append]
    rfl

theorem optionKey?_wordLed : WordLed id optionKey? where
  outside last text result h := (optionKey?_eq_some.mp h).1
  shape last text key n h := by
    obtain ⟨-, name, blanks, mark, rest, hname, htext, hblanks, hmark, hn⟩ :=
      optionKey?_eq_some.mp h
    obtain ⟨hne, hword⟩ := optionKeys_words _ hname
    refine ⟨name.toList, blanks ++ [mark], rest, htext, hn, hne, hword, fun c hc => ?_⟩
    rcases List.mem_append.mp hc with hc | hc
    · exact isWord_of_isBlank (hblanks c hc)
    · obtain rfl := List.mem_singleton.mp hc
      rcases hmark with rfl | rfl | rfl | rfl <;> decide

theorem optionKeys_names : ∀ m ∈ OptionKey.named, ∀ m' ∈ OptionKey.named, m.2 = m'.2 → m = m' := by
  decide

/-- The keys found in a text are those that stand in it. -/
theorem mem_scan_optionKey? {entry : String × OptionKey} (hentry : entry ∈ OptionKey.named)
    {text : List Char} : entry.2 ∈ scan optionKey? text ↔ Keyed entry.1.toList text := by
  have houtside (before : List Char) : outsideWord id before.getLast? ↔
      ∀ c ∈ before.getLast?, Text.isWord c = false := by
    rw [outsideWord_getLast?, List.map_id]
  rw [optionKey?_wordLed.apart.mem_scan]
  constructor
  · rintro ⟨before, c, rest, n, rfl, hfind⟩
    obtain ⟨hlast, name, blanks, mark, after, hname, htext, hblanks, hmark, -⟩ :=
      optionKey?_eq_some.mp hfind
    have hkey : name = entry.1 := congrArg Prod.fst (optionKeys_names _ hname _ hentry rfl)
    refine ⟨before, blanks, mark, after, ?_, (houtside before).mp hlast, hblanks, hmark⟩
    rw [htext, hkey]
    simp
  · rintro ⟨before, blanks, mark, after, rfl, hlast, hblanks, hmark⟩
    have hfind := optionKey?_eq_some.mpr ⟨(houtside before).mpr hlast, entry.1, blanks, mark, after,
      hentry, rfl, hblanks, hmark, rfl⟩
    obtain ⟨c, key, hkey⟩ := List.exists_cons_of_ne_nil (optionKeys_words _ hentry).1
    rw [hkey] at hfind ⊢
    exact ⟨before, c, key ++ (blanks ++ mark :: after), _, by simp, by simpa using hfind⟩

theorem isSet_foldl (keys : List OptionKey) (options : FactoryOptions) (key : OptionKey) :
    key.isSet (keys.foldl OptionKey.set options) ↔ key.isSet options ∨ key ∈ keys := by
  induction keys generalizing options with
  | nil => simp
  | cons first keys ih =>
    rw [List.foldl_cons, ih, List.mem_cons, ← or_assoc]
    refine or_congr_left ?_
    cases first <;> cases key <;> simp [OptionKey.set, OptionKey.isSet]

theorem detectOptions_sets (text : List Char) : Sets (detectOptions text) text := by
  intro entry hentry
  have hnone : entry.2.isSet {} = false := by cases entry.2 <;> rfl
  rw [detectOptions, isSet_foldl, hnone, ← mem_scan_optionKey? hentry]
  simp

/-- The keys determine the options. -/
theorem Sets.eq {options other : FactoryOptions} {text : List Char} (h : Sets options text)
    (hother : Sets other text) : options = other := by
  have hset : ∀ entry ∈ OptionKey.named, entry.2.isSet options = entry.2.isSet other :=
    fun entry hentry => Bool.eq_iff_iff.mpr ((h entry hentry).trans (hother entry hentry).symm)
  simp only [OptionKey.named, List.forall_mem_cons, OptionKey.isSet] at hset
  obtain ⟨hsearch, hsoftDelete, hacl, hpub, -⟩ := hset
  cases options
  cases other
  simp_all

theorem Alike.keyed {text other key : List Char} (h : Alike text other) (hne : key ≠ [])
    (hword : ∀ c ∈ key, Text.isWord c) (hkey : Keyed key text) : Keyed key other := by
  obtain ⟨before, blanks, mark, after, rfl, hlast, hblanks, hmark⟩ := hkey
  have hblank : mark ≠ ' ' := by rcases hmark with rfl | rfl | rfl | rfl <;> decide
  obtain ⟨before', past, rfl, hbefore, hpast⟩ := h.splitWord hne hword
  obtain ⟨blanks', after', rfl, hgap, -⟩ := hpast.split hblank rfl
  exact ⟨before', blanks', mark, after', rfl, hbefore.noWord hlast, hgap.allBlanks hblanks, hmark⟩

theorem Alike.sets {text other : List Char} (h : Alike text other) {options : FactoryOptions}
    (hsets : Sets options text) : Sets options other := by
  intro entry hentry
  obtain ⟨hne, hword⟩ := optionKeys_words entry hentry
  exact (hsets entry hentry).trans ⟨h.keyed hne hword, h.symm.keyed hne hword⟩

/-! ## Openings -/

/-- The name of a factory and the parenthesis of its call, with blanks past each. -/
def OpensCall (factory : Factory) (text : List Char) : Prop :=
  ∃ blanks lead, Blanks blanks ∧ Blanks lead ∧ text = factory.name.toList ++ (blanks ++ '(' :: lead)

theorem callOpening?_eq_some {last : Option Cell} {part rest : List Cell} {factory : Factory}
    {quote : Char} {n : Nat} : callOpening? last part = some ((factory, quote, rest), n) ↔
      outsideWord Cell.shown last ∧ ∃ opening mark, part = (opening ++ [mark]) ++ rest ∧
        OpensCall factory (opening.map Cell.shown) ∧ mark.shown = quote ∧
        (quote = '\'' ∨ quote = '"') ∧ n = (opening ++ [mark]).length := by
  constructor
  · intro h
    rw [callOpening?] at h
    split at h
    next hlast =>
      simp only [Option.bind_eq_bind, Option.bind_eq_some_iff] at h
      obtain ⟨⟨found, past⟩, hdrop, more, hparen, h⟩ := h
      obtain ⟨name, word, hname, hword, rfl⟩ := (dropAny?_eq_some Factory.named_apart).mp hdrop
      obtain ⟨blanks, hblanks, hpast⟩ := skipBlanks_start Cell.shown past
      obtain ⟨paren, hparen, hskip⟩ := dropMark?_start hparen
      obtain ⟨lead, hlead, hmore⟩ := skipBlanks_start Cell.shown more
      split at h
      next mark text hskipped =>
        split at h
        next hquote =>
          rw [hskipped] at hmore
          have htext : word ++ past = (word ++ (blanks ++ (paren ++ lead)) ++ [mark]) ++ text := by
            rw [hpast, hskip, hmore]
            simp
          rw [htext, upTo_append] at h
          obtain ⟨hfound, hn⟩ := Prod.mk.inj (Option.some.inj h)
          obtain ⟨rfl, rfl, rfl⟩ : found = factory ∧ mark.shown = quote ∧ text = rest := by
            simpa using hfound
          refine ⟨hlast, _, mark, htext, ⟨_, _, hblanks, hlead, ?_⟩, rfl, hquote, hn.symm⟩
          rw [← Factory.name_of_mem_named _ hname, ← hword]
          simp [hparen]
        next => cases h
      next => cases h
    next => cases h
  · rintro ⟨hlast, opening, mark, rfl, ⟨blanks, lead, hblanks, hlead, hopening⟩, rfl, hquote, rfl⟩
    -- What the cells of the opening show tells where to cut them.
    obtain ⟨word, past, rfl, hword, hpast⟩ := List.map_eq_append_iff.mp hopening
    obtain ⟨gap, more, rfl, rfl, hmore⟩ := List.map_eq_append_iff.mp hpast
    obtain ⟨paren, past, rfl, hparen, rfl⟩ := List.map_eq_cons_iff.mp hmore
    have hassoc : word ++ (gap ++ paren :: past) ++ [mark] ++ rest =
        word ++ (gap ++ paren :: (past ++ mark :: rest)) := by simp
    have hdrop : dropAny? Cell.shown (word ++ (gap ++ paren :: (past ++ mark :: rest)))
        Factory.named = some (factory, gap ++ paren :: (past ++ mark :: rest)) :=
      (dropAny?_eq_some Factory.named_apart).mpr ⟨_, word, factory.mem_named, hword, rfl⟩
    have hsolidParen : ∀ c ∈ (paren :: (past ++ mark :: rest)).head?,
        Text.isBlank c.shown = false := by
      simp [hparen]
      decide
    have hsolidMark : ∀ c ∈ (mark :: rest).head?, Text.isBlank c.shown = false := by
      intro c hc
      obtain rfl : mark = c := by simpa using hc
      rcases hquote with hquote | hquote <;> rw [hquote] <;> decide
    rw [callOpening?, if_pos hlast, hassoc, hdrop]
    simp only [Option.bind_eq_bind, Option.bind_some, skipBlanks_eq hblanks hsolidParen, dropMark?,
      if_pos hparen, skipBlanks_eq hlead hsolidMark, if_pos hquote]
    rw [← hassoc, upTo_append]
    rfl

theorem callOpening?_wordLed : WordLed Cell.shown callOpening? where
  outside last text result h := (callOpening?_eq_some.mp h).1
  shape last part found n h := by
    obtain ⟨factory, quote, rest⟩ := found
    obtain ⟨-, opening, mark, hpart, ⟨blanks, lead, hblanks, hlead, hopening⟩, rfl, hquote, hn⟩ :=
      callOpening?_eq_some.mp h
    obtain ⟨word, past, rfl, hword, hpast⟩ := List.map_eq_append_iff.mp hopening
    obtain ⟨hne, hletters⟩ := factory.name_word
    rw [List.append_assoc word] at hpart hn
    refine ⟨word, past ++ [mark], rest, hpart, hn, ?_, fun c hc => ?_, fun c hc => ?_⟩
    · rintro rfl
      exact hne hword.symm
    · exact hletters _ (hword ▸ List.mem_map_of_mem hc)
    · rcases List.mem_append.mp hc with hc | hc
      · have hmem : c.shown ∈ blanks ++ '(' :: lead := hpast ▸ List.mem_map_of_mem hc
        rcases List.mem_append.mp hmem with hmem | hmem
        · exact isWord_of_isBlank (hblanks _ hmem)
        · rcases List.mem_cons.mp hmem with hmem | hmem
          · rw [hmem]
            decide
          · exact isWord_of_isBlank (hlead _ hmem)
      · obtain rfl := List.mem_singleton.mp hc
        rcases hquote with hquote | hquote <;> rw [hquote] <;> decide

theorem Alike.opensCall {text other : List Char} (h : Alike text other) {factory : Factory}
    (hopens : OpensCall factory text) : OpensCall factory other := by
  obtain ⟨blanks, lead, hblanks, hlead, rfl⟩ := hopens
  obtain ⟨past, rfl, hpast⟩ := h.word factory.name_word.2
  obtain ⟨blanks', lead', rfl, hgap, hmore⟩ := hpast.split (by decide) rfl
  exact ⟨blanks', lead', hgap.allBlanks hblanks, hmore.allBlanks hlead, rfl⟩

/-! ## Arguments -/

/-- Arguments with the text after them, `depth` parentheses being open besides that of the call.
They end before the first parenthesis that closes the call, or where the text ends. -/
structure Closes (depth : Nat) (arguments after : List Char) : Prop where
  /-- No parenthesis in the arguments closes the call. -/
  inner : ∀ before rest, arguments = before ++ ')' :: rest →
    before.count '(' + depth ≠ before.count ')'
  closed : after = [] ∨
    after.head? = some ')' ∧ arguments.count '(' + depth = arguments.count ')'

theorem Closes.cons {c : Char} {depth next : Nat} {arguments after : List Char}
    (h : Closes next arguments after)
    (hcount : ∀ text : List Char, (c :: text).count '(' + depth = (c :: text).count ')' ↔
      text.count '(' + next = text.count ')')
    (hc : c = ')' → depth ≠ 0) : Closes depth (c :: arguments) after where
  inner before rest harguments := by
    cases before with
    | nil =>
      obtain ⟨rfl, -⟩ := List.cons.inj harguments
      simpa using hc rfl
    | cons d before =>
      obtain ⟨rfl, hmore⟩ := List.cons.inj harguments
      exact fun heq => h.inner before rest hmore ((hcount before).mp heq)
  closed := h.closed.imp_right (And.imp_right (hcount arguments).mpr)

theorem untilClosed_closes (depth : Nat) (cells : List Cell) : ∃ after,
    cells = untilClosed depth cells ++ after ∧
      Closes depth ((untilClosed depth cells).map Cell.shown) (after.map Cell.shown) := by
  -- A parenthesis in front changes the depth by as much as the counts of `Closes`.
  induction cells generalizing depth with
  | nil => exact ⟨[], rfl, by simp [untilClosed], .inl rfl⟩
  | cons cell cells ih =>
    rw [untilClosed.eq_def]
    dsimp only
    split
    next hopen =>
      obtain ⟨after, hcells, hcloses⟩ := ih (depth + 1)
      refine ⟨after, congrArg (cell :: ·) hcells, hcloses.cons (fun text => ?_) fun hc => ?_⟩
      · rw [hopen]
        simp
        omega
      · rw [hopen] at hc
        exact absurd hc (by decide)
    next =>
      split
      next hclose =>
        split
        · exact ⟨cell :: cells, rfl, by simp, .inr ⟨by simp [hclose], rfl⟩⟩
        next depth =>
          obtain ⟨after, hcells, hcloses⟩ := ih depth
          refine ⟨after, congrArg (cell :: ·) hcells, hcloses.cons (fun text => ?_) fun _ => ?_⟩
          · rw [hclose]
            simp
            omega
          · exact Nat.succ_ne_zero depth
      next hopen hclose =>
        obtain ⟨after, hcells, hcloses⟩ := ih depth
        refine ⟨after, congrArg (cell :: ·) hcells, hcloses.cons (fun text => ?_) fun hc => ?_⟩
        · simp [hopen, hclose]
        · exact absurd hc hclose

/-- Arguments do not go on past where they end. -/
theorem Closes.nothing_more {depth : Nat} {arguments more after other : List Char}
    (h : Closes depth arguments (more ++ after)) (hmore : Closes depth (arguments ++ more) other) :
    more = [] := by
  cases more with
  | nil => rfl
  | cons c more =>
    rcases h.closed with hnil | ⟨hhead, hcount⟩
    · simp at hnil
    · obtain rfl : c = ')' := by simpa using hhead
      exact absurd hcount (hmore.inner arguments more rfl)

/-- There is one place where the arguments of a call end. -/
theorem untilClosed_eq {depth : Nat} {arguments after : List Cell}
    (h : Closes depth (arguments.map Cell.shown) (after.map Cell.shown)) :
    untilClosed depth (arguments ++ after) = arguments := by
  obtain ⟨rest, hcells, hcloses⟩ := untilClosed_closes depth (arguments ++ after)
  rcases List.append_eq_append_iff.mp hcells with ⟨more, hmore, rfl⟩ | ⟨more, hmore, rfl⟩
  · rw [hmore, List.map_append] at hcloses
    rw [List.map_append] at h
    have hnil := h.nothing_more hcloses
    rw [hmore, List.map_eq_nil_iff.mp hnil, List.append_nil]
  · generalize untilClosed depth (arguments ++ after) = found at hmore hcloses
    subst hmore
    rw [List.map_append] at hcloses h
    have hnil := hcloses.nothing_more h
    rw [List.map_eq_nil_iff.mp hnil, List.append_nil]

theorem Alike.closes {text other after after' : List Char} (h : Alike text other)
    (hafter : Alike after after') {depth : Nat} (hcloses : Closes depth text after) :
    Closes depth other after' where
  inner before rest hother := by
    obtain ⟨before', rest', htext, hbefore, -⟩ := h.symm.split (by decide) hother
    have hne := hcloses.inner before' rest' htext
    rwa [← hbefore.count (by decide), ← hbefore.count (by decide)] at hne
  closed := by
    rcases hcloses.closed with rfl | ⟨hhead, hcount⟩
    · exact .inl hafter.nil_left
    · refine .inr ⟨?_, by rwa [← h.count (by decide), ← h.count (by decide)]⟩
      cases after with
      | nil => cases hhead
      | cons c after =>
        obtain rfl : c = ')' := by simpa using hhead
        have hstart : ')' :: after = [] ++ ')' :: after := rfl
        obtain ⟨before, past, rfl, hbefore, -⟩ := hafter.split (by decide) hstart
        rw [hbefore.nil_left]
        rfl

/-! ## Calls -/

/-- The call read from its table name and its arguments. -/
def callOf (file : String) (factory : Factory) (table arguments : List Cell) : FactoryCall where
  factory
  table := sourceText table
  file
  optionsText := sourceText arguments
  options := detectOptions (arguments.map Cell.shown)

theorem shown_ne_of_isWord {cell : Cell} (h : Text.isWord cell.char) {quote : Char}
    (hquote : quote = '\'' ∨ quote = '"') : cell.shown ≠ quote := by
  rw [Cell.shown]
  split_ifs
  · rcases hquote with rfl | rfl <;> decide
  · exact ne_of_isWord h (by rcases hquote with rfl | rfl <;> decide)

/-- Past the opening of a call: a word, the quote, and the arguments. -/
theorem callOf?_eq_some {file : String} {factory : Factory} {quote : Char}
    (hquote : quote = '\'' ∨ quote = '"') {text : List Cell} {call : FactoryCall} :
    callOf? file (factory, quote, text) = some call ↔ ∃ table mark arguments after,
      text = table ++ mark :: (arguments ++ after) ∧ table ≠ [] ∧
      (∀ cell ∈ table, Text.isWord cell.char) ∧ mark.shown = quote ∧
      Closes 0 (arguments.map Cell.shown) (after.map Cell.shown) ∧
      call = callOf file factory table arguments := by
  constructor
  · intro h
    dsimp only [callOf?] at h
    have htext : text.takeWhile (fun cell => cell.shown ≠ quote) ++
        text.dropWhile (fun cell => cell.shown ≠ quote) = text := List.takeWhile_append_dropWhile
    have hstop := List.head?_dropWhile_not (fun cell : Cell => decide (cell.shown ≠ quote)) text
    split at h
    next => cases h
    next mark past hpast =>
      rw [hpast] at htext hstop
      split at h
      next hword =>
        rw [Bool.and_eq_true, Bool.not_eq_true', List.isEmpty_eq_false_iff,
          List.all_eq_true] at hword
        obtain ⟨after, hcells, hcloses⟩ := untilClosed_closes 0 past
        refine ⟨text.takeWhile fun cell => cell.shown ≠ quote, mark, untilClosed 0 past, after, ?_,
          ?_, fun cell hcell => ?_, ?_, hcloses, ?_⟩
        · rw [← hcells, htext]
        · exact fun hnil => hword.1 (by rw [hnil]; rfl)
        · exact hword.2 _ (List.mem_map_of_mem hcell)
        · simpa using hstop
        · exact (Option.some.inj h).symm
      next => cases h
  · rintro ⟨table, mark, arguments, after, rfl, hne, hword, rfl, hcloses, rfl⟩
    -- A word has no quotes, so the first quote is the one past the table name.
    have htable : ∀ cell ∈ table, decide (cell.shown ≠ mark.shown) = true :=
      fun cell hcell => decide_eq_true (shown_ne_of_isWord (hword cell hcell) hquote)
    have hmark : decide (mark.shown ≠ mark.shown) = false := by simp
    have hall :
        (!(table.map Cell.char).isEmpty && (table.map Cell.char).all Text.isWord) = true := by
      rw [Bool.and_eq_true, Bool.not_eq_true', List.isEmpty_eq_false_iff, List.all_eq_true]
      refine ⟨fun hnil => hne (List.map_eq_nil_iff.mp hnil), fun c hc => ?_⟩
      obtain ⟨cell, hcell, rfl⟩ := List.mem_map.mp hc
      exact hword cell hcell
    rw [callOf?]
    dsimp only
    rw [List.takeWhile_append_of_pos htable, List.dropWhile_append_of_pos htable,
      List.takeWhile_cons, List.dropWhile_cons, hmark]
    simp only [Bool.false_eq_true, if_false, List.append_nil, hall, if_true, untilClosed_eq hcloses]
    rfl

/-- A factory call in some cells, with the size of the text before it. -/
inductive CallIn (file : String) (cells : List Cell) : Nat → FactoryCall → Prop
  | mk {before opening table arguments after : List Cell} {start finish : Cell}
      {factory : Factory} :
      cells = before ++ ((opening ++ [start]) ++ (table ++ finish :: (arguments ++ after))) →
      (∀ c ∈ (before.map Cell.shown).getLast?, Text.isWord c = false) →
      OpensCall factory (opening.map Cell.shown) → finish.shown = start.shown →
      (start.shown = '\'' ∨ start.shown = '"') → table ≠ [] →
      (∀ cell ∈ table, Text.isWord cell.char) →
      Closes 0 (arguments.map Cell.shown) (after.map Cell.shown) →
      CallIn file cells (String.utf8Len (before.map Cell.char))
        (callOf file factory table arguments)

/-- The factory calls of a source with their offsets. -/
def factorySites (file source : String) : List (Nat × FactoryCall) :=
  (placesFrom callOpening? (fun cell => cell.char.utf8Size) 0 none (mask source.toList)).filterMap
    fun (position, opening) => (callOf? file opening).map (position, ·)

theorem factorySites_calls (file source : String) :
    (factorySites file source).map Prod.snd = factoryCalls file source := by
  rw [factoryCalls, callOpening?_wordLed.apart.scan_eq fun cell => cell.char.utf8Size,
    List.filterMap_map, factorySites, List.map_filterMap]
  refine List.filterMap_congr fun place _ => ?_
  simp [Function.comp_def]

theorem factorySites_pairwise (file source : String) :
    (factorySites file source).Pairwise fun a b => a.1 < b.1 := by
  refine (pairwise_placesFrom (fun cell => cell.char.utf8Size_pos) 0 none _).filterMap _ ?_
  intro a b hlt site hsite site' hsite'
  obtain ⟨_, -, rfl⟩ := Option.map_eq_some_iff.mp hsite
  obtain ⟨_, -, rfl⟩ := Option.map_eq_some_iff.mp hsite'
  exact hlt

theorem sum_utf8Size (cells : List Cell) :
    (cells.map fun cell => cell.char.utf8Size).sum = String.utf8Len (cells.map Cell.char) := by
  induction cells with
  | nil => rfl
  | cons cell cells ih =>
    rw [List.map_cons, List.sum_cons, List.map_cons, String.utf8Len_cons, ih, Nat.add_comm]

theorem mem_factorySites {file source : String} {position : Nat} {call : FactoryCall} :
    (position, call) ∈ factorySites file source ↔
      CallIn file (mask source.toList) position call := by
  constructor
  · intro h
    obtain ⟨⟨place, factory, quote, text⟩, hplace, hsite⟩ := List.mem_filterMap.mp h
    obtain ⟨found, hcall, heq⟩ := Option.map_eq_some_iff.mp hsite
    obtain ⟨rfl, rfl⟩ := Prod.mk.inj heq
    obtain ⟨before, c, rest, hmask, ⟨n, hfind⟩, rfl⟩ := mem_placesFrom.mp hplace
    rw [Option.or_none] at hfind
    obtain ⟨hlast, opening, start, hpart, hopens, rfl, hquote, -⟩ := callOpening?_eq_some.mp hfind
    obtain ⟨table, finish, arguments, after, rfl, hne, hword, hfinish, hcloses, rfl⟩ :=
      (callOf?_eq_some hquote).mp hcall
    rw [Nat.zero_add, sum_utf8Size]
    exact .mk (hmask.trans (congrArg (before ++ ·) hpart)) ((outsideWord_getLast? _ _).mp hlast)
      hopens hfinish hquote hne hword hcloses
  · intro h
    cases h with
    | @mk before opening table arguments after start finish factory hmask hlast hopens hfinish
        hquote hne hword hcloses =>
      have hfind (text : List Cell) : callOpening? before.getLast? ((opening ++ [start]) ++ text) =
          some ((factory, start.shown, text), (opening ++ [start]).length) :=
        callOpening?_eq_some.mpr ⟨(outsideWord_getLast? _ _).mpr hlast, opening, start, rfl, hopens,
          rfl, hquote, rfl⟩
      have hcall : callOf? file (factory, start.shown, table ++ finish :: (arguments ++ after)) =
          some (callOf file factory table arguments) :=
        (callOf?_eq_some hquote).mpr
          ⟨table, finish, arguments, after, rfl, hne, hword, hfinish, hcloses, rfl⟩
      have hsome : (opening ++ [start]) ++ (table ++ finish :: (arguments ++ after)) ≠ [] := by simp
      obtain ⟨c, rest, hpart⟩ := List.exists_cons_of_ne_nil hsome
      have hplace := hfind (table ++ finish :: (arguments ++ after))
      rw [hpart] at hmask hplace
      rw [← Option.or_none (o := before.getLast?)] at hplace
      refine List.mem_filterMap.mpr
        ⟨_, mem_placesFrom.mpr ⟨before, c, rest, hmask, ⟨_, hplace⟩, rfl⟩, ?_⟩
      rw [Nat.zero_add, sum_utf8Size]
      exact Option.map_eq_some_iff.mpr ⟨_, hcall, rfl⟩

/-! ## Slices of calls -/

/-- A factory call at an offset of a source. The source is cut into the text before the call, the
name of the factory with its parenthesis, the table name in quotes, the arguments, and the text
after them; names, parentheses and keys are those of the masked text. -/
inductive CallAt (file source : String) : Nat → FactoryCall → Prop
  | mk {before opening table arguments after : String × String} {quote : Char} {factory : Factory}
      {options : FactoryOptions} :
      Slices source [before, opening, (String.singleton quote, String.singleton quote), table,
        (String.singleton quote, String.singleton quote), arguments, after] →
      (∀ c ∈ before.2.toList.getLast?, Text.isWord c = false) →
      OpensCall factory opening.2.toList → (quote = '\'' ∨ quote = '"') → table.1 ≠ "" →
      (∀ c ∈ table.1.toList, Text.isWord c) → Closes 0 arguments.2.toList after.2.toList →
      Sets options arguments.2.toList →
      CallAt file source before.1.utf8ByteSize
        { factory, table := table.1, file, optionsText := arguments.1, options }

/-- A quote is that of one cell. -/
theorem sliceOf_eq_singleton {cells : List Cell} {c : Char} (hc : c ≠ ' ') :
    sliceOf cells = (String.singleton c, String.singleton c) ↔
      ∃ cell, cells = [cell] ∧ cell.shown = c := by
  rw [Prod.ext_iff, ← String.toList_inj, ← String.toList_inj, sliceOf_source, sliceOf_masked,
    String.toList_singleton]
  constructor
  · rintro ⟨hsource, hmasked⟩
    obtain ⟨cell, rest, rfl, -, hrest⟩ := List.map_eq_cons_iff.mp hsource
    obtain rfl := List.map_eq_nil_iff.mp hrest
    refine ⟨cell, rfl, ?_⟩
    rw [List.flatMap_singleton] at hmasked
    rcases shown_eq_or_isBlank cell with hcell | ⟨-, hblanks⟩
    · rw [hcell] at hmasked
      exact List.singleton_inj.mp hmasked
    · exact absurd (hblanks c (by simp [hmasked])) hc
  · rintro ⟨cell, rfl, hshown⟩
    rw [List.flatMap_singleton, List.map_singleton]
    rw [Cell.shown] at hshown
    rw [Cell.blanked]
    split_ifs at hshown ⊢
    · exact absurd hshown.symm hc
    · rw [hshown]
      exact ⟨rfl, rfl⟩

theorem callIn_iff {file source : String} {position : Nat} {call : FactoryCall} :
    CallIn file (mask source.toList) position call ↔ CallAt file source position call := by
  have hblank {quote : Char} (hquote : quote = '\'' ∨ quote = '"') : quote ≠ ' ' := by
    rcases hquote with rfl | rfl <;> decide
  have hsize (cells : List Cell) :
      String.utf8Len (cells.map Cell.char) = (sliceOf cells).1.utf8ByteSize :=
    (String.utf8ByteSize_ofList _).symm
  constructor
  · intro h
    cases h with
    | @mk before opening table arguments after start finish factory hmask hlast hopens hfinish
        hquote hne hword hcloses =>
      have hparts : mask source.toList =
          [before, opening, [start], table, [finish], arguments, after].flatten := by
        rw [hmask]
        simp
      -- What is masked in a slice and what its cells show differ in blanks only (`alike_cells`).
      have hslices : Slices source [sliceOf before, sliceOf opening, sliceOf [start], sliceOf table,
          sliceOf [finish], sliceOf arguments, sliceOf after] := .of_cells hparts
      rw [(sliceOf_eq_singleton (hblank hquote)).mpr ⟨start, rfl, rfl⟩,
        (sliceOf_eq_singleton (hblank hquote)).mpr ⟨finish, rfl, hfinish⟩] at hslices
      rw [hsize]
      refine .mk hslices ?_ ?_ hquote ?_ ?_ ?_ ?_
      · rw [sliceOf_masked]
        exact (alike_cells before).noWord hlast
      · rw [sliceOf_masked]
        exact (alike_cells opening).opensCall hopens
      · rw [ne_eq, ← String.toList_eq_nil_iff, sliceOf_source, List.map_eq_nil_iff]
        exact hne
      · rw [sliceOf_source]
        simpa using hword
      · rw [sliceOf_masked, sliceOf_masked]
        exact (alike_cells arguments).closes (alike_cells after) hcloses
      · rw [sliceOf_masked]
        exact (alike_cells arguments).sets (detectOptions_sets _)
  · intro h
    cases h with
    | @mk before opening table arguments after quote factory options hslices hlast hopens hquote hne
        hword hcloses hsets =>
      -- Slices of a source come from a cut of its cells, and that of a quote from one cell.
      obtain ⟨parts, hmask, hparts⟩ := hslices.exists_cells
      obtain ⟨before, p₁, rfl, rfl, h₁⟩ := List.map_eq_cons_iff.mp hparts.symm
      obtain ⟨opening, p₂, rfl, rfl, h₂⟩ := List.map_eq_cons_iff.mp h₁
      obtain ⟨first, p₃, rfl, hfirst, h₃⟩ := List.map_eq_cons_iff.mp h₂
      obtain ⟨table, p₄, rfl, rfl, h₄⟩ := List.map_eq_cons_iff.mp h₃
      obtain ⟨second, p₅, rfl, hsecond, h₅⟩ := List.map_eq_cons_iff.mp h₄
      obtain ⟨arguments, p₆, rfl, rfl, h₆⟩ := List.map_eq_cons_iff.mp h₅
      obtain ⟨after, p₇, rfl, rfl, h₇⟩ := List.map_eq_cons_iff.mp h₆
      obtain rfl := List.map_eq_nil_iff.mp h₇
      obtain ⟨start, rfl, rfl⟩ := (sliceOf_eq_singleton (hblank hquote)).mp hfirst
      obtain ⟨finish, rfl, hfinish⟩ := (sliceOf_eq_singleton (hblank hquote)).mp hsecond
      rw [sliceOf_masked] at hlast hopens hsets
      rw [sliceOf_masked, sliceOf_masked] at hcloses
      rw [sliceOf_source] at hword
      rw [ne_eq, ← String.toList_eq_nil_iff, sliceOf_source, List.map_eq_nil_iff] at hne
      obtain rfl := hsets.eq ((alike_cells arguments).sets (detectOptions_sets _))
      rw [← hsize]
      refine .mk ?_ ((alike_cells before).symm.noWord hlast)
        ((alike_cells opening).symm.opensCall hopens) hfinish hquote hne (by simpa using hword)
        ((alike_cells arguments).symm.closes (alike_cells after).symm hcloses)
      rw [hmask]
      simp

/-- **Factory calls.** The calls of a source are those at all of its offsets, in the order of the
offsets. -/
theorem factoryCalls_sites (file source : String) : ∃ sites : List (Nat × FactoryCall),
    sites.map Prod.snd = factoryCalls file source ∧ (sites.Pairwise fun a b => a.1 < b.1) ∧
      ∀ position call, (position, call) ∈ sites ↔ CallAt file source position call :=
  ⟨factorySites file source, factorySites_calls file source, factorySites_pairwise file source,
    fun _ _ => mem_factorySites.trans callIn_iff⟩

/-- A call in the arguments of another one that is not closed, and a key in a literal. -/
example : (factoryCalls "m.ts" "crud('blog', f(orgCrud('wiki', \x7b acl \x7d), 'pub: 1')").map
    (fun call => (call.table, call.optionsText, call.options)) =
      [("blog", ", f(orgCrud('wiki', \x7b acl \x7d), 'pub: 1')", { acl := true }),
        ("wiki", ", \x7b acl \x7d", { acl := true })] := by
  decide +kernel

end Source

end ClientBindings
