import LexiconAudit.CommandLine.Arguments
import LexiconAudit.Proofs.Checking
import Mathlib.Data.List.Basic
import Mathlib.Data.List.Nodup

/-!
This module contains what the flag for JSON changes. Wherever it is added to a command line, either the command line
makes no sense any more or it asks for the same run, reported in JSON.
-/

namespace LexiconAudit.CommandLine

/-! Words and what they give. -/

inductive Item where
  | fixture (path : String)
  | flag (name : String)
  | option (name value : String)
  deriving DecidableEq, Repr

namespace Item

def fixture? : Item → Option String
  | fixture path => some path
  | _ => none

def flag? : Item → Option String
  | flag name => some name
  | _ => none

def option? : Item → Option (String × String)
  | option name value => some (name, value)
  | _ => none

end Item

def Given.add (given : Given) : Item → Except Stop Given
  | .fixture path => given.addFixture path
  | .flag name => given.addFlag name
  | .option name value => given.addOption name value

/--
What has been given in the end, when these items are added: at most one fixture, and no flag or option twice.
-/
structure AddsUp (given : Given) (items : List Item) (total : Given) : Prop where
  fixture : total.fixture.toList = given.fixture.toList ++ items.filterMap Item.fixture?
  flags : total.flags = (items.filterMap Item.flag?).reverse ++ given.flags
  options : total.options = (items.filterMap Item.option?).reverse ++ given.options
  flagsApart : total.flags.Nodup
  optionsApart : (total.options.map Prod.fst).Nodup

theorem addsUp_nil_iff {given total : Given} (hflags : given.flags.Nodup)
    (hoptions : (given.options.map Prod.fst).Nodup) : AddsUp given [] total ↔ given = total := by
  constructor
  . intro ⟨hfixture, hflags, hoptions, _, _⟩
    rw [List.filterMap_nil, List.append_nil] at hfixture
    have hfixture : given.fixture = total.fixture := by
      cases hgiven : given.fixture <;> cases htotal : total.fixture <;> simp_all
    cases given
    cases total
    cases hflags
    cases hoptions
    cases hfixture
    rfl
  . rintro rfl
    exact ⟨(List.append_nil _).symm, rfl, rfl, hflags, hoptions⟩

theorem addsUp_fixture_iff {given total : Given} {path : String} {items : List Item} :
    AddsUp given (.fixture path :: items) total ↔
      given.fixture = none ∧ AddsUp { given with fixture := some path } items total := by
  constructor
  . intro ⟨hfixture, hflags, hoptions, hflagsApart, hoptionsApart⟩
    cases hgiven : given.fixture with
    | none =>
      rw [hgiven] at hfixture
      exact ⟨rfl, hfixture, hflags, hoptions, hflagsApart, hoptionsApart⟩
    | some other =>
      -- there is room for one fixture only
      rw [hgiven] at hfixture
      cases htotal : total.fixture <;> simp [htotal, Item.fixture?] at hfixture
  . intro ⟨hnone, hfixture, hflags, hoptions, hflagsApart, hoptionsApart⟩
    refine ⟨?_, hflags, hoptions, hflagsApart, hoptionsApart⟩
    rw [hnone]
    exact hfixture

theorem addsUp_flag_iff {given total : Given} {name : String} {items : List Item} :
    AddsUp given (.flag name :: items) total ↔
      name ∉ given.flags ∧ AddsUp { given with flags := name :: given.flags } items total := by
  have hitems : ((Item.flag name :: items).filterMap Item.flag?).reverse ++ given.flags =
      (items.filterMap Item.flag?).reverse ++ name :: given.flags := by
    simp [Item.flag?]
  constructor
  . intro ⟨hfixture, hflags, hoptions, hflagsApart, hoptionsApart⟩
    rw [hitems] at hflags
    have hfresh : (name :: given.flags).Nodup := (hflags ▸ hflagsApart).of_append_right
    exact ⟨(List.nodup_cons.1 hfresh).1, hfixture, hflags, hoptions, hflagsApart, hoptionsApart⟩
  . intro ⟨_, hfixture, hflags, hoptions, hflagsApart, hoptionsApart⟩
    exact ⟨hfixture, hflags.trans hitems.symm, hoptions, hflagsApart, hoptionsApart⟩

theorem addsUp_option_iff {given total : Given} {name value : String} {items : List Item} :
    AddsUp given (.option name value :: items) total ↔
      name ∉ given.options.map Prod.fst ∧
        AddsUp { given with options := (name, value) :: given.options } items total := by
  have hitems : ((Item.option name value :: items).filterMap Item.option?).reverse ++ given.options =
      (items.filterMap Item.option?).reverse ++ (name, value) :: given.options := by
    simp [Item.option?]
  constructor
  . intro ⟨hfixture, hflags, hoptions, hflagsApart, hoptionsApart⟩
    rw [hitems] at hoptions
    have hfresh : (((name, value) :: given.options).map Prod.fst).Nodup := by
      rw [hoptions, List.map_append] at hoptionsApart
      exact hoptionsApart.of_append_right
    exact ⟨(List.nodup_cons.1 hfresh).1, hfixture, hflags, hoptions, hflagsApart, hoptionsApart⟩
  . intro ⟨_, hfixture, hflags, hoptions, hflagsApart, hoptionsApart⟩
    exact ⟨hfixture, hflags, hoptions.trans hitems.symm, hflagsApart, hoptionsApart⟩

theorem addFixture_eq_ok_iff {given next : Given} {path : String} :
    given.addFixture path = .ok next ↔ given.fixture = none ∧ { given with fixture := some path } = next := by
  unfold Given.addFixture
  split
  . next h => simp [h]
  . next h => simp [h]

theorem addFlag_eq_ok_iff {given next : Given} {name : String} :
    given.addFlag name = .ok next ↔ name ∉ given.flags ∧ { given with flags := name :: given.flags } = next := by
  unfold Given.addFlag
  split
  . next h => simp_all
  . next h => simp_all

theorem addOption_eq_ok_iff {given next : Given} {name value : String} :
    given.addOption name value = .ok next ↔ name ∉ given.options.map Prod.fst ∧
      { given with options := (name, value) :: given.options } = next := by
  have hkeys : given.options.lookup name = none ↔ name ∉ given.options.map Prod.fst := by
    rw [List.lookup_eq_none_iff]
    simp only [List.mem_map, not_exists, not_and, bne_iff_ne, ne_comm, ne_eq]
  unfold Given.addOption
  rw [← hkeys]
  split
  . next h => simp [h]
  . next h => simp [h]

theorem foldlM_add_eq_ok_iff {given total : Given} {items : List Item} (hflags : given.flags.Nodup)
    (hoptions : (given.options.map Prod.fst).Nodup) :
    items.foldlM Given.add given = .ok total ↔ AddsUp given items total := by
  induction items generalizing given with
  | nil =>
    rw [addsUp_nil_iff hflags hoptions]
    exact iff_of_eq (Except.ok.injEq given total)
  | cons item items ih =>
    rw [List.foldlM_cons, bind_eq_ok_iff]
    cases item with
    | fixture path =>
      simp only [Given.add, addFixture_eq_ok_iff, and_assoc, exists_and_left, exists_eq_left', addsUp_fixture_iff]
      exact and_congr_right fun _ => ih hflags hoptions
    | flag name =>
      simp only [Given.add, addFlag_eq_ok_iff, and_assoc, exists_and_left, exists_eq_left', addsUp_flag_iff]
      exact and_congr_right fun hname => ih (List.nodup_cons.2 ⟨hname, hflags⟩) hoptions
    | option name value =>
      simp only [Given.add, addOption_eq_ok_iff, and_assoc, exists_and_left, exists_eq_left', addsUp_option_iff]
      exact and_congr_right fun hname => ih hflags (List.nodup_cons.2 ⟨hname, hoptions⟩)

inductive Gives (form : Form) : (words : List String) → (items : List Item) → Prop where
  | nil : Gives form [] []
  | fixture {word path : String} {words : List String} {items : List Item} : Word.ofString word = .plain path →
    Gives form words items → Gives form (word :: words) (.fixture path :: items)
  | divider {word : String} {words : List String} : Word.ofString word = .divider →
    Gives form (word :: words) (words.map .fixture)
  | flag {word name : String} {words : List String} {items : List Item} : Word.ofString word = .long name none →
    name ≠ "help" → form.flags.contains name = true →
      Gives form words items → Gives form (word :: words) (.flag name :: items)
  | option {word name value : String} {words : List String} {items : List Item} :
    Word.ofString word = .long name none → name ≠ "help" → form.flags.contains name = false →
      form.options.contains name = true → isValue value = true →
        Gives form words items → Gives form (word :: value :: words) (.option name value :: items)
  | attached {word name value : String} {words : List String} {items : List Item} :
    Word.ofString word = .long name (some value) → form.options.contains name = true →
      Gives form words items → Gives form (word :: words) (.option name value :: items)

theorem foldlM_fixture (given : Given) (words : List String) :
    (words.map Item.fixture).foldlM Given.add given = words.foldlM Given.addFixture given :=
  List.foldlM_map ..

theorem exists_gives_of_readWords {form : Form} {given given' : Given} {words : List String}
    (h : readWords form given words = .ok given') :
    ∃ items, Gives form words items ∧ items.foldlM Given.add given = .ok given' := by
  fun_induction readWords form given words with
  | case1 given => exact ⟨[], .nil, h⟩
  | case2 given word words path hword ih =>
    obtain ⟨next, hnext, h⟩ := bind_eq_ok_iff.1 h
    obtain ⟨items, hitems, hadd⟩ := ih next h
    exact ⟨.fixture path :: items, .fixture hword hitems, bind_eq_ok_iff.2 ⟨next, hnext, hadd⟩⟩
  | case3 given word words hword => exact ⟨words.map .fixture, .divider hword, (foldlM_fixture ..).trans h⟩
  | case6 given word words name hword hhelp hflag ih =>
    obtain ⟨next, hnext, h⟩ := bind_eq_ok_iff.1 h
    obtain ⟨items, hitems, hadd⟩ := ih next h
    exact ⟨.flag name :: items, .flag hword hhelp hflag hitems, bind_eq_ok_iff.2 ⟨next, hnext, hadd⟩⟩
  | case8 given word name hword hhelp hflag hoption value words hvalue ih =>
    obtain ⟨next, hnext, h⟩ := bind_eq_ok_iff.1 h
    obtain ⟨items, hitems, hadd⟩ := ih next h
    exact ⟨.option name value :: items, .option hword hhelp (Bool.eq_false_iff.2 hflag) hoption hvalue hitems,
      bind_eq_ok_iff.2 ⟨next, hnext, hadd⟩⟩
  | case11 given word words name value hword hoption ih =>
    obtain ⟨next, hnext, h⟩ := bind_eq_ok_iff.1 h
    obtain ⟨items, hitems, hadd⟩ := ih next h
    exact ⟨.option name value :: items, .attached hword hoption hitems, bind_eq_ok_iff.2 ⟨next, hnext, hadd⟩⟩
  | _ => cases h

theorem readWords_of_gives {form : Form} {given given' : Given} {words : List String} {items : List Item}
    (h : Gives form words items) (hadd : items.foldlM Given.add given = .ok given') :
    readWords form given words = .ok given' := by
  induction h generalizing given with
  | nil => exact hadd
  | fixture hword _ ih =>
    obtain ⟨next, hnext, hadd⟩ := bind_eq_ok_iff.1 hadd
    unfold readWords
    rw [hword]
    exact bind_eq_ok_iff.2 ⟨next, hnext, ih hadd⟩
  | divider hword =>
    unfold readWords
    rw [hword]
    exact (foldlM_fixture ..).symm.trans hadd
  | flag hword hhelp hflag _ ih =>
    obtain ⟨next, hnext, hadd⟩ := bind_eq_ok_iff.1 hadd
    unfold readWords
    rw [hword]
    dsimp only
    rw [if_neg hhelp, if_pos hflag]
    exact bind_eq_ok_iff.2 ⟨next, hnext, ih hadd⟩
  | option hword hhelp hflag hoption hvalue _ ih =>
    obtain ⟨next, hnext, hadd⟩ := bind_eq_ok_iff.1 hadd
    unfold readWords
    rw [hword]
    dsimp only
    rw [if_neg hhelp, if_neg (Bool.eq_false_iff.1 hflag), if_pos hoption, if_pos hvalue]
    exact bind_eq_ok_iff.2 ⟨next, hnext, ih hadd⟩
  | attached hword hoption _ ih =>
    obtain ⟨next, hnext, hadd⟩ := bind_eq_ok_iff.1 hadd
    unfold readWords
    rw [hword]
    dsimp only
    rw [if_pos hoption]
    exact bind_eq_ok_iff.2 ⟨next, hnext, ih hadd⟩

theorem readWords_eq_ok_iff {form : Form} {words : List String} {total : Given} :
    readWords form {} words = .ok total ↔ ∃ items, Gives form words items ∧ AddsUp {} items total := by
  have hadd (items : List Item) : items.foldlM Given.add {} = .ok total ↔ AddsUp {} items total :=
    foldlM_add_eq_ok_iff List.nodup_nil List.nodup_nil
  constructor
  . intro h
    obtain ⟨items, hgives, htotal⟩ := exists_gives_of_readWords h
    exact ⟨items, hgives, (hadd items).1 htotal⟩
  . intro ⟨items, hgives, htotal⟩
    exact readWords_of_gives hgives ((hadd items).2 htotal)

/-! The flag among the words. -/

def jsonWord : String := "--json"

theorem ofString_jsonWord : Word.ofString jsonWord = .long jsonFlag none := by decide

theorem isValue_jsonWord : isValue jsonWord = false := by decide

theorem eq_jsonWord_of_ofString {word : String} (h : Word.ofString word = .long jsonFlag none) : word = jsonWord := by
  unfold Word.ofString at h
  split at h
  . cases h
  . next cs hword =>
    split at h
    . have hname := congrArg String.toList (Word.long.inj h).1
      rw [String.toList_ofList] at hname
      rw [hname] at hword
      exact String.toList_injective hword
    . cases (Word.long.inj h).2
  . cases h
  . cases h

theorem gives_jsonWord {form : Form} (hform : form.flags.contains jsonFlag = true) {words : List String}
    {items : List Item} (h : Gives form words items) : Gives form (jsonWord :: words) (.flag jsonFlag :: items) :=
  .flag ofString_jsonWord (by decide) hform h

theorem Gives.unique {form : Form} {words : List String} {items items' : List Item} (h : Gives form words items)
    (h' : Gives form words items') : items = items' := by
  induction h generalizing items' <;> cases h' <;> grind

theorem Gives.jsonWord_mem {form : Form} {words : List String} {items : List Item} (h : Gives form words items)
    (hflag : .flag jsonFlag ∈ items) : jsonWord ∈ words := by
  induction h with
  | nil => cases hflag
  | fixture _ _ ih | attached _ _ _ ih =>
    exact List.mem_cons_of_mem _ (ih ((List.mem_cons.1 hflag).resolve_left nofun))
  | option _ _ _ _ _ _ ih =>
    exact List.mem_cons_of_mem _ (List.mem_cons_of_mem _ (ih ((List.mem_cons.1 hflag).resolve_left nofun)))
  | divider _ =>
    obtain ⟨path, -, hpath⟩ := List.mem_map.1 hflag
    cases hpath
  | flag hword _ _ _ ih =>
    rcases List.mem_cons.1 hflag with heq | hflag
    . cases heq
      rw [eq_jsonWord_of_ofString hword]
      exact List.mem_cons_self
    . exact List.mem_cons_of_mem _ (ih hflag)

theorem Gives.exists_append {form : Form} (hform : form.flags.contains jsonFlag = true) {front back : List String}
    {items items' : List Item} (h : Gives form (front ++ back) items)
    (h' : Gives form (front ++ jsonWord :: back) items') :
    ∃ before after, items = before ++ after ∧
      (items' = before ++ .flag jsonFlag :: after ∨ items' = before ++ .fixture jsonWord :: after) := by
  match front with
  | [] => exact ⟨[], items, rfl, .inl (h'.unique (gives_jsonWord hform h))⟩
  | word :: front =>
    rw [List.cons_append] at h h'
    generalize hwords : front ++ back = words at h
    generalize hwords' : front ++ jsonWord :: back = words' at h'
    cases h with
    | fixture hword h =>
      cases h' with
      | fixture hword' h' =>
        subst hwords hwords'
        obtain ⟨before, after, rfl, hitems'⟩ := h.exists_append hform h'
        cases hword.symm.trans hword'
        exact ⟨.fixture _ :: before, after, rfl, hitems'.imp (congrArg _) (congrArg _)⟩
      | _ => grind
    | divider hword =>
      cases h' with
      | divider =>
        subst hwords hwords'
        exact ⟨front.map .fixture, back.map .fixture, List.map_append, .inr List.map_append⟩
      | _ => grind
    | flag hword _ hflag h =>
      cases h' with
      | flag hword' _ _ h' =>
        subst hwords hwords'
        obtain ⟨before, after, rfl, hitems'⟩ := h.exists_append hform h'
        cases hword.symm.trans hword'
        exact ⟨.flag _ :: before, after, rfl, hitems'.imp (congrArg _) (congrArg _)⟩
      | _ => grind
    | attached hword _ h =>
      cases h' with
      | attached hword' _ h' =>
        subst hwords hwords'
        obtain ⟨before, after, rfl, hitems'⟩ := h.exists_append hform h'
        cases hword.symm.trans hword'
        exact ⟨.option _ _ :: before, after, rfl, hitems'.imp (congrArg _) (congrArg _)⟩
      | _ => grind
    | option hword _ hflag _ _ h =>
      cases h' with
      | option hword' _ _ _ hvalue' h' =>
        cases hword.symm.trans hword'
        cases front with
        | nil =>
          -- the word for JSON is no value
          cases hwords'
          cases isValue_jsonWord.symm.trans hvalue'
        | cons value front =>
          cases hwords
          cases hwords'
          obtain ⟨before, after, rfl, hitems'⟩ := h.exists_append hform h'
          exact ⟨.option _ _ :: before, after, rfl, hitems'.imp (congrArg _) (congrArg _)⟩
      | _ => grind
termination_by front.length

/-! The flag among what is given. -/

structure WithJson (given given' : Given) : Prop where
  fixture : given'.fixture = given.fixture
  options : given'.options = given.options
  json : given'.flags.contains jsonFlag = true

theorem AddsUp.withJson {given total total' : Given} {before after : List Item}
    (h : AddsUp given (before ++ after) total) (h' : AddsUp given (before ++ .flag jsonFlag :: after) total') :
    WithJson total total' := by
  constructor
  . have hfixture : total'.fixture.toList = total.fixture.toList := by
      rw [h.fixture, h'.fixture, List.filterMap_append, List.filterMap_append]
      rfl
    exact Option.ext fun path => by rw [← Option.mem_toList, hfixture, Option.mem_toList]
  . rw [h.options, h'.options, List.filterMap_append, List.filterMap_append]
    rfl
  . rw [h'.flags]
    simp [Item.flag?]

theorem AddsUp.fixture_eq_none {given total total' : Given} {before after : List Item} {path : String}
    (h : AddsUp given (before ++ after) total) (h' : AddsUp given (before ++ .fixture path :: after) total') :
    total.fixture = none := by
  have hlength := congrArg List.length h.fixture
  have hlength' := congrArg List.length h'.fixture
  have hle : total'.fixture.toList.length ≤ 1 := by cases total'.fixture <;> simp
  simp [Item.fixture?] at hlength hlength'
  cases hfixture : total.fixture with
  | none => rfl
  | some other =>
    simp [hfixture] at hlength
    omega

theorem AddsUp.flag_cons {total : Given} {items : List Item} {name : String} (h : AddsUp {} items total)
    (hname : name ∉ total.flags) :
    AddsUp {} (.flag name :: items) { total with flags := total.flags ++ [name] } := by
  refine ⟨h.fixture, ?_, h.options, ?_, h.optionsApart⟩
  . rw [h.flags]
    simp [Item.flag?]
  . exact List.nodup_append_comm.2 (List.nodup_cons.2 ⟨hname, h.flagsApart⟩)

/-! The flag on a command line. -/

structure Asks (command : Given → Except Stop Command) (config : Option String) (given : Given)
    (invocation : Invocation) : Prop where
  command : command given = .ok invocation.command
  fixture : given.fixture = some invocation.fixture
  config : invocation.config = ((given.options.lookup configOption).or config).getD defaultConfig
  json : invocation.json = given.flags.contains jsonFlag

theorem readCommand_eq_ok_iff {config : Option String} {name : String} {words : List String}
    {invocation : Invocation} : readCommand config name words = .ok invocation ↔
      ∃ form command, commands.lookup name = some (form, command) ∧
        ∃ given, readWords form {} words = .ok given ∧ Asks command config given invocation := by
  unfold readCommand
  cases hlookup : commands.lookup name with
  | none =>
    dsimp only
    split <;> simp
  | some entry =>
    obtain ⟨form, command⟩ := entry
    simp only [Option.some.injEq, Prod.mk.injEq, exists_eq_left', ↓existsAndEq, true_and, and_assoc]
    rw [bind_eq_ok_iff]
    refine exists_congr fun given => and_congr_right fun _ => ?_
    cases hfixture : given.fixture with
    | none =>
      refine iff_of_false nofun fun h => ?_
      cases hfixture.symm.trans h.fixture
    | some fixture =>
      dsimp only
      rw [bind_eq_ok_iff]
      constructor
      . rintro ⟨asked, hasked, h⟩
        cases h
        exact ⟨hasked, hfixture, rfl, rfl⟩
      . rintro ⟨hcommand, hfixture', hconfig, hjson⟩
        refine ⟨_, hcommand, ?_⟩
        cases hfixture.symm.trans hfixture'
        rw [← hconfig, ← hjson]
        rfl

theorem commands_json {name : String} {form : Form} {command : Given → Except Stop Command}
    (h : commands.lookup name = some (form, command)) : form.flags.contains jsonFlag = true ∧
      ∀ given given' : Given, given'.options = given.options → command given' = command given := by
  obtain ⟨before, after, hcommands, -⟩ := List.lookup_eq_some_iff.1 h
  have hmem : (name, form, command) ∈ commands := by
    rw [hcommands]
    exact List.mem_append_right _ List.mem_cons_self
  simp only [commands, List.mem_cons, Prod.mk.injEq, List.not_mem_nil, or_false] at hmem
  rcases hmem with ⟨-, rfl, rfl⟩ | ⟨-, rfl, rfl⟩ | ⟨-, rfl, rfl⟩ <;>
    exact ⟨rfl, fun given given' hoptions => by simp only [hoptions]⟩

theorem Asks.withJson {command : Given → Except Stop Command} {config : Option String} {given given' : Given}
    {invocation : Invocation} (h : Asks command config given invocation) (hjson : WithJson given given')
    (hcommand : command given' = command given) : Asks command config given' { invocation with json := true } :=
  ⟨hcommand.trans h.command, hjson.fixture.trans h.fixture, by rw [hjson.options]; exact h.config, hjson.json.symm⟩

theorem Asks.unique {command : Given → Except Stop Command} {config : Option String} {given : Given}
    {invocation invocation' : Invocation} (h : Asks command config given invocation)
    (h' : Asks command config given invocation') : invocation = invocation' := by
  have hcommand := Except.ok.inj (h.command.symm.trans h'.command)
  have hfixture := Option.some.inj (h.fixture.symm.trans h'.fixture)
  have hconfig := h.config.trans h'.config.symm
  have hjson := h.json.trans h'.json.symm
  cases invocation
  cases invocation'
  simp_all

theorem jsonWord_mem_of_readCommand {config : Option String} {name : String} {words : List String}
    {invocation : Invocation} (h : readCommand config name words = .ok invocation) (hjson : invocation.json = true) :
    jsonWord ∈ words := by
  obtain ⟨form, command, -, given, hread, hasks⟩ := readCommand_eq_ok_iff.1 h
  obtain ⟨items, hgives, hadd⟩ := readWords_eq_ok_iff.1 hread
  rw [hasks.json, hadd.flags, List.append_nil, List.contains_eq_mem, decide_eq_true_eq, List.mem_reverse,
    List.mem_filterMap] at hjson
  obtain ⟨item, hitem, hflag⟩ := hjson
  cases item with
  | flag name =>
    cases hflag
    exact hgives.jsonWord_mem hitem
  | fixture path => cases hflag
  | option name value => cases hflag

theorem readCommand_insert {config : Option String} {name : String} {front back : List String}
    {invocation invocation' : Invocation} (h : readCommand config name (front ++ back) = .ok invocation)
    (h' : readCommand config name (front ++ jsonWord :: back) = .ok invocation') :
    invocation' = { invocation with json := true } := by
  obtain ⟨form, command, hlookup, given, hread, hasks⟩ := readCommand_eq_ok_iff.1 h
  obtain ⟨form', command', hlookup', given', hread', hasks'⟩ := readCommand_eq_ok_iff.1 h'
  cases hlookup.symm.trans hlookup'
  obtain ⟨hform, hcommand⟩ := commands_json hlookup
  obtain ⟨items, hgives, hadd⟩ := readWords_eq_ok_iff.1 hread
  obtain ⟨items', hgives', hadd'⟩ := readWords_eq_ok_iff.1 hread'
  obtain ⟨before, after, rfl, rfl | rfl⟩ := hgives.exists_append hform hgives'
  . have hjson := hadd.withJson hadd'
    exact hasks'.unique (hasks.withJson hjson (hcommand _ _ hjson.options))
  . cases (hadd.fixture_eq_none hadd').symm.trans hasks.fixture

theorem readCommand_cons {config : Option String} {name : String} {words : List String} {invocation : Invocation}
    (h : readCommand config name words = .ok invocation) (hplain : invocation.json = false) :
    readCommand config name (jsonWord :: words) = .ok { invocation with json := true } := by
  obtain ⟨form, command, hlookup, given, hread, hasks⟩ := readCommand_eq_ok_iff.1 h
  obtain ⟨hform, hcommand⟩ := commands_json hlookup
  obtain ⟨items, hgives, hadd⟩ := readWords_eq_ok_iff.1 hread
  have hfresh : jsonFlag ∉ given.flags := by
    have hcontains := hasks.json.symm.trans hplain
    simpa using hcontains
  have hread' := readWords_eq_ok_iff.2 ⟨_, gives_jsonWord hform hgives, hadd.flag_cons hfresh⟩
  refine readCommand_eq_ok_iff.2 ⟨form, command, hlookup, _, hread', ?_⟩
  exact hasks.withJson ⟨rfl, rfl, by simp⟩ (hcommand _ _ rfl)

theorem readFrom_jsonWord (config : Option String) (words : List String) :
    readFrom config (jsonWord :: words) = .error .misuse := by
  unfold readFrom
  rw [ofString_jsonWord]
  rfl

theorem readFrom_insert {config : Option String} {front back : List String} {invocation invocation' : Invocation}
    (h : readFrom config (front ++ back) = .ok invocation)
    (h' : readFrom config (front ++ jsonWord :: back) = .ok invocation') :
    invocation' = { invocation with json := true } := by
  cases front with
  | nil => cases (readFrom_jsonWord config back).symm.trans h'
  | cons word front =>
    rw [List.cons_append] at h h'
    unfold readFrom at h h'
    split at h
    . next name hword =>
      rw [hword] at h'
      exact readCommand_insert h h'
    . cases h
    . cases h
    . next name hword =>
      rw [hword] at h'
      dsimp only at h'
      split at h
      . cases h
      next hhelp =>
      split at h
      . cases h
      next hversion =>
      split at h
      . next hconfig =>
        rw [if_neg hhelp, if_neg hversion, if_pos hconfig] at h'
        cases front with
        | nil =>
          -- the word for JSON is no value
          rw [List.nil_append] at h'
          dsimp only at h'
          rw [isValue_jsonWord] at h'
          cases h'
        | cons value front =>
          rw [List.cons_append] at h h'
          dsimp only at h h'
          split at h
          . next hvalue =>
            rw [if_pos hvalue] at h'
            exact readFrom_insert h h'
          . cases h
      . cases h
    . next name value hword =>
      rw [hword] at h'
      dsimp only at h'
      split at h
      . next hconfig =>
        rw [if_pos hconfig] at h'
        exact readFrom_insert h h'
      . cases h
termination_by front.length

theorem jsonWord_mem_of_readFrom {config : Option String} {words : List String} {invocation : Invocation}
    (h : readFrom config words = .ok invocation) (hjson : invocation.json = true) : jsonWord ∈ words := by
  fun_induction readFrom config words with
  | case2 => exact List.mem_cons_of_mem _ (jsonWord_mem_of_readCommand h hjson)
  | case8 _ _ _ _ _ _ _ _ _ _ ih => exact List.mem_cons_of_mem _ (List.mem_cons_of_mem _ (ih h))
  | case11 _ _ _ _ _ _ _ ih => exact List.mem_cons_of_mem _ (ih h)
  | _ => cases h

theorem exists_readFrom_insert {config : Option String} {words : List String} {invocation : Invocation}
    (h : readFrom config words = .ok invocation) (hplain : invocation.json = false) :
    ∃ front back, words = front ++ back ∧
      readFrom config (front ++ jsonWord :: back) = .ok { invocation with json := true } := by
  fun_induction readFrom config words with
  | case2 config word words name hword =>
    refine ⟨[word], words, rfl, ?_⟩
    unfold readFrom
    dsimp only [List.singleton_append]
    rw [hword]
    exact readCommand_cons h hplain
  | case8 config word name hword hhelp hversion hconfig value words hvalue ih =>
    obtain ⟨front, back, rfl, hread⟩ := ih h
    refine ⟨word :: value :: front, back, rfl, ?_⟩
    unfold readFrom
    dsimp only [List.cons_append]
    rw [hword]
    dsimp only
    rw [if_neg hhelp, if_neg hversion, if_pos hconfig, if_pos hvalue]
    exact hread
  | case11 config word words name value hword hconfig ih =>
    obtain ⟨front, back, rfl, hread⟩ := ih h
    refine ⟨word :: front, back, rfl, ?_⟩
    unfold readFrom
    dsimp only [List.cons_append]
    rw [hword]
    dsimp only
    rw [if_pos hconfig]
    exact hread
  | _ => cases h

end LexiconAudit.CommandLine
