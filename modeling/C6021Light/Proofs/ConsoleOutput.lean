import C6021Light.Proofs.ConsoleScreen
import C6021Light.Proofs.ConsoleSession

/-!
# `C6021Light.Proofs.ConsoleOutput`: what the commands write

Each command writes whole lines of printable characters, so the terminal has a new row behind its
answer (`microrlExecuteCallback_writes`). The source forgets one line end: the answer of a download
protocol that was set ends with a backslash and an `n` (`SetsDownloadProtocol`).

`Writes` is a rule for programs: whatever they do, they append whole lines to the output. The tokens
of the command line are written in some of the answers, and the revision of the build in one.
-/

set_option autoImplicit false

namespace C6021Light

open FaultRun LockStep

/-! ### Lines -/

/-- Printable characters and line ends. -/
def Legible (text : CString) : Prop :=
  text.all (fun c => c = Terminal.lf || Terminal.Printable c) = true

/-- Whether a text is legible can be computed. -/
instance (text : CString) : Decidable (Legible text) := inferInstanceAs (Decidable (_ = true))

/-- Lines with a line end behind each of them. -/
structure WholeLines (text : CString) : Prop where
  legible : Legible text
  ends : text.getLastD Terminal.lf = Terminal.lf

/-- So can whether it is made of whole lines. -/
instance (text : CString) : Decidable (WholeLines text) :=
  decidable_of_iff (Legible text ∧ text.getLastD Terminal.lf = Terminal.lf)
    ⟨fun h => ⟨h.1, h.2⟩, fun h => ⟨h.legible, h.ends⟩⟩

variable {text text' : CString}

/-- Two legible texts are one. -/
theorem Legible.append (h : Legible text) (h' : Legible text') : Legible (text ++ text') := by
  rw [Legible, List.all_append, h, h']
  rfl

/-- Printable characters are legible. -/
theorem legible_of_printable (h : ∀ c ∈ text, Terminal.Printable c) : Legible text := by
  refine List.all_eq_true.mpr fun c hc => ?_
  rw [Bool.or_eq_true, decide_eq_true_iff, decide_eq_true_iff]
  exact .inr (h c hc)

/-- Legible parts make a legible text. -/
theorem legible_flatMap {α : Type} {l : List α} {f : α → CString} (h : ∀ a ∈ l, Legible (f a)) :
    Legible (l.flatMap f) := by
  induction l with
  | nil => rfl
  | cons a l ih =>
      obtain ⟨ha, hl⟩ := List.forall_mem_cons.mp h
      rw [List.flatMap_cons]
      exact ha.append (ih hl)

/-- No text at all is made of whole lines. -/
theorem wholeLines_nil : WholeLines [] := ⟨rfl, rfl⟩

/-- Some text, and lines behind it. -/
theorem Legible.wholeLines (h : Legible text) (h' : WholeLines text') (hne : text' ≠ []) :
    WholeLines (text ++ text') := by
  refine ⟨h.append h'.legible, ?_⟩
  rw [List.getLastD_eq_getLast?, List.getLast?_append_of_ne_nil _ hne, ← List.getLastD_eq_getLast?,
    h'.ends]

/-- Whole lines with whole lines behind them. -/
theorem WholeLines.append (h : WholeLines text) (h' : WholeLines text') :
    WholeLines (text ++ text') := by
  by_cases hnil : text' = []
  · rw [hnil, List.append_nil]
    exact h
  · exact h.legible.wholeLines h' hnil

/-- A list of whole lines. -/
theorem wholeLines_flatten {lines : List CString} (h : ∀ line ∈ lines, WholeLines line) :
    WholeLines lines.flatten := by
  induction lines with
  | nil => exact wholeLines_nil
  | cons line lines ih =>
      obtain ⟨hline, hlines⟩ := List.forall_mem_cons.mp h
      exact hline.append (ih hlines)

/-- Legible text is some lines, and the beginning of another one. -/
theorem Legible.exists_rows (h : Legible text) :
    ∃ (rows : List CString) (last : CString),
      text = rows.flatMap (· ++ [Terminal.lf]) ++ last ∧
      (∀ row ∈ rows, ∀ c ∈ row, Terminal.Printable c) ∧ ∀ c ∈ last, Terminal.Printable c := by
  induction text with
  | nil => exact ⟨[], [], rfl, by simp, by simp⟩
  | cons c text ih =>
      rw [Legible, List.all_cons, Bool.and_eq_true] at h
      obtain ⟨hc, hrest⟩ := h
      obtain ⟨rows, last, rfl, hrows, hlast⟩ := ih hrest
      rw [Bool.or_eq_true, decide_eq_true_iff, decide_eq_true_iff] at hc
      obtain rfl | hprintable := hc
      · exact ⟨[] :: rows, last, rfl, List.forall_mem_cons.mpr ⟨by simp, hrows⟩, hlast⟩
      · cases rows with
        | nil => exact ⟨[], c :: last, rfl, by simp, List.forall_mem_cons.mpr ⟨hprintable, hlast⟩⟩
        | cons row rows =>
            obtain ⟨hrow, hmore⟩ := List.forall_mem_cons.mp hrows
            exact ⟨(c :: row) :: rows, last, rfl, List.forall_mem_cons.mpr
              ⟨List.forall_mem_cons.mpr ⟨hprintable, hrow⟩, hmore⟩, hlast⟩

/-- Lines are sent as rows. -/
theorem WholeLines.wholeRows (h : WholeLines text) :
    WholeRows (serialText Terminal.lf text) := by
  obtain ⟨rows, last, rfl, hrows, hlast⟩ := h.legible.exists_rows
  have hnil : last = [] := by
    rcases last.eq_nil_or_concat with hnil | ⟨front, c, hconcat⟩
    · exact hnil
    · rw [List.concat_eq_append] at hconcat
      have hend := h.ends
      rw [hconcat, ← List.append_assoc, List.getLastD_concat] at hend
      have hc := hlast c (hconcat ▸ List.mem_append_right _ List.mem_cons_self)
      rw [hend] at hc
      exact absurd hc (by decide)
  rw [hnil, List.append_nil]
  refine ⟨rows, ?_, hrows⟩
  clear h hlast hnil
  induction rows with
  | nil => rfl
  | cons row rows ih =>
      obtain ⟨hrow, hmore⟩ := List.forall_mem_cons.mp hrows
      have hsent : serialText Terminal.lf row = row := serialText_of_ne fun c hc => by
        rintro rfl
        exact absurd (hrow _ hc) (by decide)
      rw [List.flatMap_cons, List.flatMap_cons, ← ih hmore, serialText, List.flatMap_append,
        List.flatMap_append]
      exact congrArg (· ++ [Terminal.cr, Terminal.lf] ++ _) hsent

/-! ### Programs -/

/-- The values of a list come from its elements. -/
theorem mem_of_mapM_ok {φ α β : Type} {f : α → Except φ β} {l : List α} {bs : List β}
    (h : l.mapM f = .ok bs) :
    ∀ b ∈ bs, ∃ a ∈ l, f a = .ok b := by
  induction l generalizing bs with
  | nil =>
      cases h
      exact List.forall_mem_nil _
  | cons a l ih =>
      rw [List.mapM_cons] at h
      obtain ⟨b, hb, hrest⟩ := bind_eq_ok.mp h
      obtain ⟨bs', hbs, hend⟩ := bind_eq_ok.mp hrest
      cases hend
      refine List.forall_mem_cons.mpr ⟨⟨a, List.mem_cons_self, hb⟩, fun b' hb' => ?_⟩
      obtain ⟨a', ha', hvalue⟩ := ih hbs b' hb'
      exact ⟨a', List.mem_cons_of_mem a ha', hvalue⟩

namespace ConsoleManager

variable {α β : Type} {revision : CString} {argv : List CString} {appName : CString}
  {argcMatched : Nat}

/-- Whatever the program does, it appends whole lines to the output. The revision stays. -/
def Writes (revision : CString) (program : ConsoleRun α) : Prop :=
  ∀ console result console', console.buildGitRevision = revision →
    program.run console = .ok (result, console') →
    console'.buildGitRevision = revision ∧
      ∃ text, WholeLines text ∧ console'.output = console.output ++ text

/-- Two programs, where the second one depends on the result of the first. -/
theorem Writes.bind {x : ConsoleRun α} {f : α → ConsoleRun β} (hx : Writes revision x)
    (hf : ∀ console a console', x.run console = .ok (a, console') → Writes revision (f a)) :
    Writes revision (x >>= f) := by
  intro console result console' hrevision hrun
  obtain ⟨a, next, hfirst, hrest⟩ := run_bind_eq_ok.mp hrun
  obtain ⟨hrevision', text, htext, houtput⟩ := hx _ _ _ hrevision hfirst
  obtain ⟨hrevision'', text', htext', houtput'⟩ :=
    hf console a next hfirst _ _ _ hrevision' hrest
  exact ⟨hrevision'', text ++ text', htext.append htext',
    by rw [houtput', houtput, List.append_assoc]⟩

/-- Two programs, one after the other. -/
theorem Writes.seq {x : ConsoleRun Unit} {y : ConsoleRun β} (hx : Writes revision x)
    (hy : Writes revision y) : Writes revision (do x; y) := hx.bind fun _ _ _ _ => hy

/-- A program that only returns writes nothing. -/
theorem writes_pure (a : α) : Writes revision (pure a : ConsoleRun α) := by
  intro console result console' hrevision hrun
  cases hrun
  exact ⟨hrevision, [], wholeLines_nil, (List.append_nil _).symm⟩

/-- A read of an array or a table writes nothing. -/
theorem writes_read {x : Except ConsoleFault α} {f : α → ConsoleRun β}
    (hf : ∀ a, x = .ok a → Writes revision (f a)) :
    Writes revision ((liftM x : ConsoleRun α) >>= f) := by
  have hread : Writes revision (liftM x : ConsoleRun α) := by
    intro console result console' hrevision hrun
    obtain ⟨-, hsame⟩ := run_liftM_eq_ok.mp hrun
    obtain rfl : console' = console := hsame
    exact ⟨hrevision, [], wholeLines_nil, (List.append_nil _).symm⟩
  exact hread.bind fun console a console' hrun => hf a (run_liftM_eq_ok.mp hrun).1

/-- Printing writes its text. -/
theorem writes_print {text : CString} (h : WholeLines text) :
    Writes revision (print text) := by
  intro console result console' hrevision hrun
  cases hrun
  exact ⟨hrevision, text, h, rfl⟩

/-- Legible text goes between a beginning and the end of the line. -/
theorem writes_between {front text rest : CString} (htext : Legible text) (hfront : Legible front)
    (hrest : WholeLines rest) (hne : rest ≠ []) : Writes revision (print (front ++ text ++ rest)) :=
  writes_print ((hfront.append htext).wholeLines hrest hne)

/-- A change of the rest of the state writes nothing. -/
theorem writes_modify {change : ConsoleManager → ConsoleManager}
    (hrevision : ∀ console, (change console).buildGitRevision = console.buildGitRevision)
    (houtput : ∀ console, (change console).output = console.output) :
    Writes revision (modify change : ConsoleRun Unit) := by
  intro console result console' hsame hrun
  cases hrun
  exact ⟨(hrevision console).trans hsame, [], wholeLines_nil,
    (houtput console).trans (List.append_nil _).symm⟩

/-- A program that reads the state first. -/
theorem writes_get {f : ConsoleManager → ConsoleRun β}
    (hf : ∀ console, console.buildGitRevision = revision → Writes revision (f console)) :
    Writes revision (get >>= f) := by
  intro console result console' hrevision hrun
  rw [run_get_bind] at hrun
  exact hf console hrevision _ _ _ hrevision hrun

/-- Changing a setting writes nothing. -/
theorem writes_configure (change : DataModel → DataModel) :
    Writes revision (configure change) := writes_modify (fun _ => rfl) fun _ => rfl

/-- A call of another component writes nothing. -/
theorem writes_request (consoleRequest : ConsoleRequest) :
    Writes revision (request consoleRequest) := writes_modify (fun _ => rfl) fun _ => rfl

/-! ### Help -/

/-- The digits of a number are legible. -/
theorem legible_toDigits (n : Nat) : Legible (Nat.toDigits 10 n) :=
  legible_of_printable fun c hc => by
    have hdigit := Char.isDigit_iff_toNat.mp (LineEditor.isDigit_toDigits n c hc)
    exact Nat.le_trans (by decide) hdigit.1

/-- A decimal number with its sign. -/
theorem legible_toString (n : Int) : Legible (toString n).toList := by
  rw [Int.toString_eq_repr, Int.repr_eq_if]
  split
  · rw [Nat.toList_repr]
    exact legible_toDigits _
  · rw [String.toList_append, Nat.toList_repr]
    exact Legible.append (by decide) (legible_toDigits _)

/-- The names and the help texts of the tables are legible. -/
theorem legible_helpTable {entries : Table} (h : helpTable argv = some entries) :
    ∀ entry ∈ entries, Legible entry.name ∧ Legible (entry.help.getD []) := by
  have hall : ∀ path ∈ chains 5 (some argtable),
      ∀ entry ∈ (argumentTables.belowLast (some argtable) path).getD [],
        Legible entry.name ∧ Legible (entry.help.getD []) := by decide +kernel
  have htable := hall _ (matchedPath_mem_chains argv)
  rw [helpTable] at h
  rwa [h] at htable

/-- A word that could be read is a word of the arguments. -/
theorem getElem?_of_tokenAt {idx : Nat} {token : CString} (h : tokenAt argv idx = .ok token) :
    argv[idx]? = some token := by
  rw [tokenAt, readArgv] at h
  cases hget : argv[idx]? with
  | none =>
      rw [hget] at h
      cases h
  | some found =>
      rw [hget] at h
      cases h
      rfl

/-- The tokens of a line of the help. -/
theorem legible_argumentsText (hargv : ∀ token ∈ argv, Legible token) {argc : Nat}
    {text : CString} (h : argumentsText argc argv = .ok text) : Legible text := by
  obtain ⟨tokens, htokens, hend⟩ := bind_eq_ok.mp h
  cases hend
  refine legible_flatMap fun token htoken => Legible.append ?_ (by decide)
  obtain ⟨idx, -, hread⟩ := mem_of_mapM_ok htokens token htoken
  exact hargv token (List.mem_of_getElem? (getElem?_of_tokenAt hread))

/-- The help line of an argument is a whole line. -/
theorem wholeLines_entryText (hargv : ∀ token ∈ argv, Legible token) {validArgc : Nat}
    {argument : Argument CommandHandler} (hname : Legible argument.name)
    (hhelp : Legible (argument.help.getD [])) {line : CString}
    (h : entryText validArgc argv argument = .ok line) : WholeLines line := by
  obtain ⟨arguments, harguments, hend⟩ := bind_eq_ok.mp h
  cases hend
  refine Legible.wholeLines ?_ (by decide) (by decide)
  refine Legible.append (Legible.append (Legible.append (Legible.append (by decide)
    (legible_argumentsText hargv harguments)) hname) ?_) ?_
  · split <;> decide
  · split
    · rename_i help hsome
      rw [hsome] at hhelp
      exact Legible.append (by decide) hhelp
    · decide

/-- The help is lines. -/
theorem writes_displayHelp (hargv : ∀ token ∈ argv, Legible token) :
    Writes revision (displayHelp argv) := by
  refine writes_read fun start hstart => ?_
  rw [helpStart_eq] at hstart
  cases hstart
  refine (writes_print (by decide)).seq (writes_read fun entries hentries => ?_)
  refine writes_read fun lines hlines => ?_
  have htable : helpTable argv = some entries := by
    cases htable : helpTable argv with
    | none =>
        rw [htable] at hentries
        cases hentries
    | some found =>
        rw [htable] at hentries
        cases hentries
        rfl
  have hwhole : WholeLines lines.flatten := by
    refine wholeLines_flatten fun line hline => ?_
    obtain ⟨entry, hentry, htext⟩ := mem_of_mapM_ok hlines line hline
    obtain ⟨hname, hhelp⟩ := legible_helpTable htable entry hentry
    exact wholeLines_entryText hargv hname hhelp htext
  exact (writes_print hwhole).seq (writes_modify (fun _ => rfl) fun _ => rfl)

/-! ### Handlers -/

variable {expected : Nat} {body : ConsoleRun Int}

/-- The check of the number of arguments writes one line or none. -/
theorem writes_checkNumArgs (happName : Legible appName) (argc lower upper : Int) :
    Writes revision (checkNumArgs argc lower upper appName) := by
  have hmessage (few : CString) (hfew : Legible few) : WholeLines
      (appName ++ ": Too ".toList ++ few ++ " arguments (".toList ++ (toString lower).toList
        ++ " expected, ".toList ++ (toString argc).toList ++ " given).\n".toList) := by
    refine Legible.wholeLines ?_ (by decide) (by decide)
    exact ((((((happName.append (by decide)).append hfew).append (by decide)).append
      (legible_toString lower)).append (by decide)).append (legible_toString argc))
  rw [checkNumArgs]
  split
  · exact (writes_print (hmessage _ (by decide))).seq (writes_pure _)
  · split
    · exact (writes_print (hmessage _ (by decide))).seq (writes_pure _)
    · exact writes_pure _

/-- A handler that displays the help for another number of arguments. -/
theorem writes_expectArgs (hargv : ∀ token ∈ argv, Legible token) (happName : Legible appName)
    (hbody : argv.length = argcMatched + expected → Writes revision body) :
    Writes revision (expectArgs appName expected argv argcMatched body) := by
  refine (writes_checkNumArgs happName _ _ _).bind fun console fits console' hrun => ?_
  by_cases heq : argv.length = argcMatched + expected
  · split
    · exact hbody heq
    · exact (writes_displayHelp hargv).seq (writes_pure _)
  · have hargc : (argv.length : Int) - argcMatched ≠ expected := by omega
    obtain ⟨text, hcheck⟩ := @checkNumArgs_run_of_ne _ appName _ hargc console
    cases hcheck.symm.trans hrun
    exact (writes_displayHelp hargv).seq (writes_pure _)

/-- A handler that expects no arguments writes what its body writes, or the text of the check. -/
theorem writes_expectNoArgs (happName : Legible appName) (hbody : Writes revision body) :
    Writes revision (expectNoArgs appName argv argcMatched body) := by
  refine (writes_checkNumArgs happName _ _ _).bind fun console fits console' hrun => ?_
  split
  · exact hbody
  · exact writes_pure _

/-- The argument behind the matched tokens is legible. -/
theorem writes_tokenAt (hargv : ∀ token ∈ argv, Legible token) {f : CString → ConsoleRun β}
    (hf : ∀ token, Legible token → argv[argcMatched]? = some token → Writes revision (f token)) :
    Writes revision ((liftM (tokenAt argv argcMatched) : ConsoleRun CString) >>= f) := by
  refine writes_read fun token htoken => ?_
  have hget := getElem?_of_tokenAt htoken
  exact hf token (hargv token (List.mem_of_getElem? hget)) hget

/-- The line sets the download protocol. -/
def SetsDownloadProtocol (argv : List CString) : Prop :=
  ∃ protocol ∈ argv.drop 2, argv = ["canEngineDB".toList, "downloadProtocol".toList, protocol] ∧
    (downloadProtocolOf protocol).isSome = true

/-- Whether a line sets the download protocol can be computed. -/
instance (argv : List CString) : Decidable (SetsDownloadProtocol argv) :=
  inferInstanceAs (Decidable (∃ protocol ∈ argv.drop 2, _))

/-- A command with one argument. -/
theorem writes_oneArg (hargv : ∀ token ∈ argv, Legible token) (happName : Legible appName)
    {body : CString → ConsoleRun Int}
    (hbody : ∀ token, Legible token → argv.length = argcMatched + 1 →
      argv[argcMatched]? = some token → Writes revision (body token)) :
    Writes revision (expectArgs appName 1 argv argcMatched
      (do body (← (liftM (tokenAt argv argcMatched) : ConsoleRun CString)))) :=
  writes_expectArgs hargv happName fun hlen =>
    writes_tokenAt hargv fun token htoken hget => hbody token htoken hlen hget

/-- Each command writes whole lines. -/
theorem writes_call (hargv : ∀ token ∈ argv, Legible token) (hrevision : Legible revision)
    {handler : CommandHandler}
    (hset : handler = .runAppSetEnginedbProtocol → argv.length = argcMatched + 1 →
      ∀ protocol, argv[argcMatched]? = some protocol → downloadProtocolOf protocol = none) :
    Writes revision (call (some handler) argv argcMatched) := by
  -- The handlers differ in what they write: an argument, a state or nothing at all.
  cases handler with
  | runAppSetTurnoutProtocol =>
      refine writes_oneArg hargv (by decide) fun protocolArgument hprotocol _ _ => ?_
      split
      · exact (writes_configure _).seq
          ((writes_between hprotocol (by decide) (by decide) (by decide)).seq (writes_pure _))
      · exact (writes_between hprotocol (by decide) (by decide) (by decide)).seq (writes_pure _)
  | runAppSetEnginedbProtocol =>
      refine writes_oneArg hargv (by decide) fun protocol hprotocol hlen hget => ?_
      -- A known download protocol is excluded, and the text for an unknown one is a whole line.
      rw [hset rfl hlen protocol hget]
      exact (writes_between hprotocol (by decide) (by decide) (by decide)).seq (writes_pure _)
  | runLnSlotServerDispatch =>
      exact writes_oneArg hargv (by decide) fun dispatchAddr _ _ _ =>
        (writes_request _).seq (writes_pure _)
  | runLnSlotServerActive | runLnSlotServerPassive | runLnSlotServerDisable
  | runSetGenerateI2CTurnoutResponseEnable | runSetGenerateI2CTurnoutResponseDisable =>
      exact writes_expectArgs hargv (by decide) fun _ => (writes_configure _).seq (writes_pure _)
  | runLnSlotServerDump =>
      exact writes_expectArgs hargv (by decide) fun _ => (writes_request _).seq (writes_pure _)
  | runLnSlotServerGetstatus =>
      refine writes_expectArgs hargv (by decide) fun _ => writes_get fun console _ => ?_
      refine (writes_print ?_).seq (writes_pure _)
      cases console.dataModel.lnSlotServerState <;> decide
  | runGetGenerateI2CTurnoutResponse =>
      refine writes_expectArgs hargv (by decide) fun _ => writes_get fun console _ => ?_
      refine (writes_print ?_).seq (writes_pure _)
      cases console.dataModel.generateI2CTurnoutResponse <;> decide
  | runAppGetTurnoutProtocol =>
      refine writes_expectNoArgs (by decide) (writes_get fun console _ => ?_)
      refine (writes_print ?_).seq (writes_pure _)
      cases console.dataModel.accessoryRailProtocol <;> decide
  | runAppSave =>
      refine writes_expectNoArgs (by decide) (writes_get fun console _ => ?_)
      exact (writes_request _).seq ((writes_print (by decide)).seq (writes_pure _))
  | runAppHelp =>
      exact (writes_displayHelp (List.forall_mem_nil _)).seq (writes_pure _)
  | runAppVersion =>
      refine Writes.seq (writes_get fun console hsame => ?_) (writes_pure _)
      rw [hsame]
      exact writes_between hrevision (by decide) (by decide) (by decide)
  | runAppDownloadEnginedbCan =>
      exact (writes_request _).seq ((writes_request _).seq (writes_pure _))
  | runAppDumpFlash | runAppFormatFlash | runAppDumpEnginedbCan | runAppCanPing =>
      exact (writes_request _).seq (writes_pure _)

/-- The command that sets the download protocol. -/
theorem commands_downloadProtocol : ∀ command ∈ ConsoleState.commands,
    command.2 = .runAppSetEnginedbProtocol →
      command.1 = ["canEngineDB", "downloadProtocol"].map String.toList := by
  decide

/-- A command line is answered with whole lines, if it does not set the download protocol. -/
theorem writes_microrlExecuteCallback (hargv : ∀ token ∈ argv, Legible token)
    (hrevision : Legible revision) (hset : ¬ SetsDownloadProtocol argv) :
    Writes revision (microrlExecuteCallback argv) := by
  refine Writes.bind ?_ fun console result console' _ => ?_
  · have hdeepest := deepestHandler_eq argv
    cases hcommand : ConsoleState.commandAt argv with
    | none =>
        rw [hcommand] at hdeepest
        rw [callHandler_of_deepestHandler_none hdeepest]
        exact writes_pure _
    | some command =>
        rw [hcommand] at hdeepest
        obtain ⟨hmem, args, rfl⟩ := of_commandAt hcommand
        -- A command of the list has at least one word.
        have hsome : ∀ command ∈ ConsoleState.commands,
            command.1.length - 1 + 1 = command.1.length := by decide
        rw [callHandler_of_deepestHandler_some hdeepest, hsome command hmem]
        refine writes_call hargv hrevision fun hhandler hlen protocol hget => ?_
        have hname := commands_downloadProtocol command hmem hhandler
        rw [List.length_append, Nat.add_left_cancel_iff, List.length_eq_one_iff] at hlen
        obtain ⟨arg, rfl⟩ := hlen
        rw [List.getElem?_concat_length] at hget
        obtain rfl := Option.some.inj hget
        -- Setting a known download protocol is what `hset` excludes.
        refine Option.not_isSome_iff_eq_none.mp fun hsets => hset ⟨arg, ?_, ?_, hsets⟩
        · rw [hname]
          exact List.mem_singleton.mpr rfl
        · rw [hname]
          rfl
  -- Behind the handler only `kNoHandler` writes: the words, and the help.
  · split
    · have htokens : Legible (argv.flatMap (· ++ " ".toList)) :=
        legible_flatMap fun token htoken => (hargv token htoken).append (by decide)
      exact (writes_between htokens (by decide) (by decide) (by decide)).seq
        ((writes_displayHelp hargv).seq (writes_pure _))
    · exact writes_pure _

end ConsoleManager

namespace ConsoleTask

open ConsoleManager Microrl

variable {task task' : ConsoleTask} {editor : LineEditor} {keys : List Byte}
  {console : ConsoleManager}

/-! ### The terminal -/

/-- Letters and digits are printable. -/
theorem printable_of_isAlphanum {c : Char} (h : c.isAlphanum = true) : Terminal.Printable c := by
  refine Nat.le_of_not_lt fun hlt => ?_
  have hcontrol : ∀ n < 32, (Char.ofNat n).isAlphanum = false := by decide
  have hnone := hcontrol c.toNat hlt
  rw [Char.ofNat_toNat, h] at hnone
  cases hnone

/-- The names of the commands can be shown. -/
theorem completesPrintable : LineEditor.CompletesPrintable (some microrlCompleteCallback) := by
  intro complete hcomplete argc argv complToken s hcall hs
  cases hcomplete
  obtain ⟨buffer, hfill, hend⟩ := bind_eq_ok.mp hcall
  cases hend
  -- The last entry of the buffer is null, so the name is in front of it.
  have hmem : some s ∈ buffer := by
    obtain hmem | hnone := List.mem_append.mp hs
    · exact hmem
    · cases List.mem_singleton.mp hnone
  by_cases hargv : argv.take argc.toNat = []
  · rw [hargv] at hfill
    cases hfill
    cases (List.mem_replicate.mp hmem).2
  · rw [fillCompletionData_eq _ hargv] at hfill
    cases htoken : readArgv (argv.take argc.toNat)
        (matchedPath argtable (argv.take argc.toNat)).length with
    | error fault =>
        rw [htoken] at hfill
        cases hfill
    | ok token =>
        rw [htoken] at hfill
        cases hfill
        -- The name is one of the table, or the rest of the buffer, which is null.
        obtain hname | hnone := List.mem_append.mp hmem
        · obtain ⟨_, hname, hsame⟩ := List.mem_map.mp hname
          cases hsame
          have halnum := (isAlphanum_of_mem_completionsIn (List.mem_of_mem_take hname)).2
          exact fun c hc => printable_of_isAlphanum (halnum c hc)
        · cases (List.mem_replicate.mp hnone).2

/-- The line editor of a session. The commands do not change it. -/
theorem microrl_run {front : List Byte} :
    ∀ {task : ConsoleTask}, front.foldlM insertChar task = .ok task' →
      front.foldlM microrlInsertChar task.microrl = .ok task'.microrl := by
  induction front with
  | nil =>
      intro task hrun
      cases hrun
      rfl
  | cons ch front ih =>
      intro task hrun
      rw [List.foldlM_cons] at hrun
      obtain ⟨next, hstep, hrest⟩ := bind_eq_ok.mp hrun
      obtain ⟨microrl, hmicrorl, hcalls⟩ := bind_eq_ok.mp hstep
      have hsame : next.microrl = microrl := (foldlM_handleCall _ hcalls).1
      rw [List.foldlM_cons, LineEditor.of_mapError hmicrorl, ok_bind, ← hsame]
      exact ih hrest

/-- With any answers of whole rows, the user sees the prompt and the line, and the cursor where it
is. -/
theorem seen_of_sends (hrun : keys.foldlM insertChar (.begin console) = .ok task) {sent : CString}
    (hsent : Sends task.microrl.calls sent) : task.microrl.Seen (Terminal.feed {} sent) :=
  seen_insertChars completesPrintable (microrl_run hrun) hsent

/-! ### What the console sends -/

/-- The words of the line have printable characters only. -/
theorem legible_command (h : editor.Over fun c => Terminal.Printable (shown c)) :
    ∀ word ∈ editor.command, Legible word := by
  intro word hword
  refine legible_of_printable fun c hc => ?_
  have hshown := LineEditor.forall_mem_command h hword c hc
  have hne : c ≠ nul := of_decide_eq_false ((Words.mem_words hword).2 c hc)
  rwa [shown, if_neg hne] at hshown

/-- The calls of a key are sent, and the answers are whole rows. -/
theorem sends_foldlM_handleCall {revision : CString} (hrevision : Legible revision)
    (calls : List MicrorlCall) :
    ∀ {task task' : ConsoleTask}, calls.foldlM handleCall task = .ok task' →
      task.console.buildGitRevision = revision →
      (∀ argv ∈ executions calls, (∀ token ∈ argv, Legible token) ∧ ¬ SetsDownloadProtocol argv) →
        task'.console.buildGitRevision = revision ∧
          ∃ sent, task'.serial = task.serial ++ sent ∧ Sends calls sent := by
  -- The induction is on the calls. What is sent for each one is put in front of the rest.
  induction calls with
  | nil =>
      intro task task' h hsame _
      cases h
      exact ⟨hsame, [], (List.append_nil _).symm, rfl⟩
  | cons call calls ih =>
      intro task task' h hsame hlines
      rw [List.foldlM_cons] at h
      obtain ⟨next, hcall, hrest⟩ := bind_eq_ok.mp h
      cases call with
      | print text =>
          cases hcall
          obtain ⟨hsame', sent, hserial, hsent⟩ := ih hrest hsame hlines
          refine ⟨hsame', serialText Terminal.cr text ++ sent, ?_, _, sent, rfl, rfl, hsent⟩
          rw [hserial, List.append_assoc]
      | execute argv =>
          obtain ⟨⟨hargv, hset⟩, hmore⟩ := List.forall_mem_cons.mp hlines
          obtain ⟨⟨result, console⟩, hrun, hend⟩ := bind_eq_ok.mp hcall
          cases hend
          obtain ⟨hkept, text, htext, houtput⟩ := writes_microrlExecuteCallback hargv hrevision hset
            task.console result console hsame (LineEditor.of_mapError hrun)
          obtain ⟨hsame', sent, hserial, hsent⟩ := ih hrest hkept hmore
          refine ⟨hsame', serialText Terminal.lf text ++ sent, ?_, _, sent, rfl, htext.wholeRows,
            hsent⟩
          rw [hserial, List.append_assoc]
          simp only [houtput, List.drop_left]

/-- What holds in each state of a session, as long as no line sets the download protocol. -/
structure Transmits (revision : CString) (task : ConsoleTask) (editor : LineEditor) : Prop where
  represents : task.microrl.Represents editor
  completion : LineEditor.CompletesPrintable editor.getCompletion
  chars : editor.Over fun c => Terminal.Printable (shown c)
  serial : (∀ argv ∈ executions editor.calls, ¬ SetsDownloadProtocol argv) →
    task.console.buildGitRevision = revision ∧ Sends editor.calls task.serial

/-- At the start the prompt is all that was sent. -/
theorem transmits_begin (console : ConsoleManager) :
    Transmits console.buildGitRevision (.begin console)
      (.start true (some microrlCompleteCallback)) :=
  ⟨represents_begin true _, completesPrintable, ⟨nofun, nofun, nofun, nofun⟩,
    fun _ => ⟨rfl, sends_singleton.mpr rfl⟩⟩

/-- What a key sends goes behind what was sent. -/
theorem transmits_step {revision : CString} (hrevision : Legible revision)
    (h : Transmits revision task editor) {ch : Byte} (hstep : task.insertChar ch = .ok task') :
    ∃ editor', editor.step ch = .ok editor' ∧ Transmits revision task' editor' := by
  obtain ⟨editor', new, heditor, h', hnew, hcalls⟩ := exists_step h.represents hstep
  refine ⟨editor', heditor, h', getCompletion_step heditor ▸ h.completion, ?_, fun hset => ?_⟩
  · obtain hedits | ⟨-, -, rfl⟩ :=
      LineEditor.step_cases (LineEditor.allows_printable h.completion) heditor
    · exact hedits.chars h.chars
    · exact LineEditor.over_submit h.chars
  rw [hnew, executions_append] at hset
  obtain ⟨hold, hlines⟩ := List.forall_mem_append.mp hset
  obtain ⟨hsame, hsent⟩ := h.serial hold
  -- A key executes the words of the line.
  have hwords : ∀ argv ∈ executions new, ∀ token ∈ argv, Legible token := by
    obtain ⟨commands, hcommands, -, hall⟩ := executions_step heditor
    rw [hnew, executions_append] at hcommands
    obtain rfl := List.append_cancel_left hcommands
    intro argv hargv
    obtain ⟨rfl, -⟩ := hall argv hargv
    exact legible_command h.chars
  obtain ⟨hsame', sent, hserial, hsent'⟩ := sends_foldlM_handleCall hrevision new hcalls hsame
    fun argv hargv => ⟨hwords argv hargv, hlines argv hargv⟩
  rw [hserial, hnew]
  exact ⟨hsame', sends_append.mpr ⟨task.serial, sent, rfl, hsent, hsent'⟩⟩

/-- The console sends what the line editor prints, and answers with whole rows. -/
theorem transmits_run {revision : CString} (hrevision : Legible revision) {front : List Byte} :
    ∀ {task : ConsoleTask} {editor : LineEditor}, Transmits revision task editor →
      front.foldlM insertChar task = .ok task' →
      ∃ editor', front.foldlM LineEditor.step editor = .ok editor' ∧
        Transmits revision task' editor' := by
  induction front with
  | nil =>
      intro task editor h hrun
      cases hrun
      exact ⟨editor, rfl, h⟩
  | cons ch front ih =>
      intro task editor h hrun
      rw [List.foldlM_cons] at hrun
      obtain ⟨next, hstep, hrest⟩ := bind_eq_ok.mp hrun
      obtain ⟨editor', heditor, h'⟩ := transmits_step hrevision h hstep
      obtain ⟨last, hlast, htransmits⟩ := ih h' hrest
      exact ⟨last, by rw [List.foldlM_cons, heditor]; exact hlast, htransmits⟩

/-- Whatever keys come, a terminal that reads what the console sends shows the prompt and the line,
and its cursor is where it is in the line. The row has no right end. Other components may write
whole rows of their own during a command. The revision of the build must be legible, and no line may
set the download protocol, whose answer has no line end. -/
theorem seen_session (hrun : keys.foldlM insertChar (.begin console) = .ok task)
    (hrevision : Legible console.buildGitRevision)
    (hset : ∀ argv ∈ executions task.microrl.calls, ¬ SetsDownloadProtocol argv) :
    task.microrl.Seen (Terminal.feed {} task.serial) ∧ Sends task.microrl.calls task.serial ∧
      ∀ sent, Sends task.microrl.calls sent → task.microrl.Seen (Terminal.feed {} sent) := by
  obtain ⟨editor, -, h⟩ := transmits_run hrevision (transmits_begin console) hrun
  have hsent : Sends task.microrl.calls task.serial := by
    rw [h.represents.calls] at hset ⊢
    exact (h.serial hset).2
  exact ⟨seen_of_sends hrun hsent, hsent, fun sent => seen_of_sends hrun⟩

/-- The session with `flash save` shows its line on the terminal. -/
theorem seen_session_flashSave :
    ∃ task, (flashTexts.flatMap (· ++ [13])).foldlM insertChar (.begin {}) = .ok task ∧
      task.microrl.Seen (Terminal.feed {} task.serial) := by
  obtain ⟨task, hrun, hexecutions⟩ :=
    typed_session {} (show MicrorlKey.ofByte 13 = .cr from rfl)
      (show ∀ text ∈ flashTexts, ∀ ch ∈ text, Typable ch by decide)
      (show ∀ text ∈ flashTexts, ¬ Refused (LineEditor.typedWords (text.map charOfByte)) by decide)
  have hset : ∀ argv ∈ executions task.microrl.calls, ¬ SetsDownloadProtocol argv := by
    rw [hexecutions]
    decide
  exact ⟨task, hrun, (seen_session hrun (by decide) hset).1⟩

end ConsoleTask

end C6021Light
