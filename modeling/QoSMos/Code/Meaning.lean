import QoSMos.Build.Shape
import QoSMos.Code.Program

/-!
# What the Python file means

A snippet may do anything with the variables, but the next one starts with the numbers that the
kernel has stored at its own event. Only variables for an algorithm of congestion control of which
the kernel says nothing then are left from before. The file has the snippets in the order of the
events, and a reader of the lines in front of a snippet gets back what was printed.
-/

namespace QoSMos.Code

open Assignments Returns

/-! ## The program of a script -/

/-- What the file has for one event: three groups of assignments and the snippet. -/
structure Section where
  info : List Assignment
  ccInfo : List Assignment
  memInfo : List Assignment
  text : CodeText
  deriving DecidableEq, Repr

def Section.assignments (s : Section) : List Assignment := s.info ++ s.ccInfo ++ s.memInfo

def Section.print (s : Section) : List Char :=
  Assignments.print s.info ++ emitVarEnd ++ (Assignments.print s.ccInfo ++ emitVarEnd) ++
    (Assignments.print s.memInfo ++ emitVarEnd) ++ writeText s.text

/-- The variables at the start of each snippet, where a snippet has some effect on them. -/
def startEnvs (effect : CodeText → Env → Env) : Env → List Section → List Env
  | _, [] => []
  | env, s :: sections =>
    let start := run env s.assignments
    start :: startEnvs effect (effect s.text start) sections

/-- The variables for what the kernel has said about congestion control: those of each algorithm
whose numbers fit. -/
def ccValues (info : List UInt8) (len : Nat) : List Assignment :=
  (if len < 20 then [] else bbrValues info) ++
    (if len < 16 then [] else values dctcpFields info) ++
    (if len < 16 then [] else values vegasFields info)

/-- A snippet starts with the answers that the kernel gave at its event. -/
structure Shows (e : CodeEvent) (env : Env) : Prop where
  symbols : ∀ a ∈ symbols, env a.name = some a.value
  tcpInfo : ∃ buffer len, getData e .tcpInfo = some (buffer, len) ∧
    ∀ a ∈ values tcpInfoFields buffer, env a.name = some a.value
  tcpCcInfo : ∃ buffer len, getData e .tcpCcInfo = some (buffer, len) ∧
    ∀ a ∈ ccValues buffer len, env a.name = some a.value
  soMeminfo : ∃ buffer len, getData e .soMeminfo = some (buffer, len) ∧
    ∀ a ∈ values meminfoFields buffer, env a.name = some a.value

/-- The section of an event. -/
structure Describes (scriptPath : List Char) (e : CodeEvent) (s : Section) : Prop where
  info : ∃ buffer len, getData e .tcpInfo = some (buffer, len) ∧
    s.info = symbols ++ values tcpInfoFields buffer
  ccInfo : ∃ buffer len, getData e .tcpCcInfo = some (buffer, len) ∧ s.ccInfo = ccValues buffer len
  memInfo : ∃ buffer len, getData e .soMeminfo = some (buffer, len) ∧
    s.memInfo = values meminfoFields buffer
  text : s.text = ⟨e.text, scriptPath, e.lineNumber⟩

/-! ## Names -/

/-- All the names that a section can assign to. -/
def sectionNames : List (List Char) :=
  (symbols ++ values tcpInfoFields [] ++ (bbrValues [] ++ values dctcpFields [] ++
    values vegasFields []) ++ values meminfoFields []).map Assignment.name

/-- A number for a name, with which names are compared faster. -/
def nameCode (name : List Char) : Nat := name.foldl (fun n c => 256 * n + c.toNat) 0

theorem sectionNames_distinct :
    (sectionNames.map nameCode).Nodup ∧ ∀ name ∈ sectionNames, IsName name := by decide +kernel

section Names

variable {fields : List (String × Field)} {buffer buffer' : List UInt8} {len : Nat}
  {e : CodeEvent} {s : Section} {scriptPath : List Char}

theorem names_values : (values fields buffer).map Assignment.name =
    (values fields buffer').map Assignment.name := by
  simp [values, Function.comp_def]

theorem names_ccValues : ((ccValues buffer len).map Assignment.name).Sublist
    ((bbrValues [] ++ values dctcpFields [] ++ values vegasFields []).map Assignment.name) := by
  have hgroup (short : Bool) (group group' : List Assignment)
      (h : group.map Assignment.name = group'.map Assignment.name) :
      ((if short then [] else group).map Assignment.name).Sublist
        (group'.map Assignment.name) := by
    cases short
    · exact h ▸ List.Sublist.refl _
    · exact List.nil_sublist _
  have hbbr : (bbrValues buffer).map Assignment.name = (bbrValues []).map Assignment.name := by
    simp only [bbrValues, List.map_append, List.map_cons, @names_values _ buffer []]
  unfold ccValues
  rw [List.map_append, List.map_append, List.map_append, List.map_append]
  refine ((?_ : List.Sublist _ _).append ?_).append ?_
  · simpa using hgroup (decide (len < 20)) _ _ hbbr
  · simpa using hgroup (decide (len < 16)) _ _ names_values
  · simpa using hgroup (decide (len < 16)) _ _ names_values

/-- Whatever the kernel has answered, a section assigns to some of the names, to each one once. -/
theorem Describes.names (h : Describes scriptPath e s) :
    (s.assignments.map Assignment.name).Sublist sectionNames := by
  obtain ⟨info, -, -, hinfo⟩ := h.info
  obtain ⟨ccInfo, ccLen, -, hcc⟩ := h.ccInfo
  obtain ⟨memInfo, -, -, hmem⟩ := h.memInfo
  unfold Section.assignments sectionNames
  rw [hinfo, hcc, hmem, List.map_append, List.map_append, List.map_append, List.map_append,
    List.map_append, List.map_append]
  refine (((List.Sublist.refl _).append ?_).append names_ccValues).append ?_
  · exact (@names_values _ info []) ▸ List.Sublist.refl _
  · exact (@names_values _ memInfo []) ▸ List.Sublist.refl _

theorem Describes.nodup (h : Describes scriptPath e s) :
    (s.assignments.map Assignment.name).Nodup :=
  h.names.nodup (List.Nodup.of_map nameCode sectionNames_distinct.1)

theorem Describes.isName (h : Describes scriptPath e s) :
    ∀ a ∈ s.assignments, IsName a.name := fun _ ha =>
  sectionNames_distinct.2 _ (h.names.subset (List.mem_map_of_mem ha))

end Names

/-! ## Meaning -/

section Meaning

variable {e : CodeEvent} {s : Section} {scriptPath : List Char} {events : List CodeEvent}
  {sections : List Section} {env : Env}

/-- The assignments of a section do not depend on the variables before. -/
theorem Describes.shows (h : Describes scriptPath e s) (env : Env) :
    Shows e (run env s.assignments) := by
  have hrun (a : Assignment) (ha : a ∈ s.assignments) :
      run env s.assignments a.name = some a.value :=
    run_of_mem h.nodup ha
  obtain ⟨info, infoLen, hget, hinfo⟩ := h.info
  obtain ⟨ccInfo, ccLen, hgetCc, hcc⟩ := h.ccInfo
  obtain ⟨memInfo, memLen, hgetMem, hmem⟩ := h.memInfo
  refine ⟨fun a ha => hrun a ?_, ⟨info, infoLen, hget, fun a ha => hrun a ?_⟩,
    ⟨ccInfo, ccLen, hgetCc, fun a ha => hrun a ?_⟩,
    ⟨memInfo, memLen, hgetMem, fun a ha => hrun a ?_⟩⟩ <;>
    simp [Section.assignments, hinfo, hcc, hmem, ha]

theorem shows_startEnvs (effect : CodeText → Env → Env)
    (h : List.Forall₂ (Describes scriptPath) events sections) (env : Env) :
    List.Forall₂ Shows events (startEnvs effect env sections) := by
  induction h generalizing env with
  | nil => exact .nil
  | cons hdescribes _ ih => exact .cons (hdescribes.shows env) (ih _)

end Meaning

/-! ## Text -/

section Text

variable {e : CodeEvent} {s : Section} {scriptPath rest : List Char} {program : List Assignment}

/-- A group of assignments, and what is behind the line that ends it. -/
def readGroup (text : List Char) : List Assignment × List Char :=
  let (program, rest) := read text.length text
  (program, rest.drop emitVarEnd.length)

/-- The lines in front of a snippet. -/
def readSection (text : List Char) :
    List Assignment × List Assignment × List Assignment × List Char :=
  let (info, text) := readGroup text
  let (ccInfo, text) := readGroup text
  let (memInfo, rest) := readGroup text
  (info, ccInfo, memInfo, rest)

theorem length_le_print (program : List Assignment) :
    program.length ≤ (Assignments.print program).length := by
  induction program with
  | nil => exact Nat.le_refl 0
  | cons a program ih =>
    simp only [Assignments.print, List.flatMap_cons, List.length_append, List.length_cons,
      Assignment.print] at ih ⊢
    omega

theorem readGroup_print (hnames : ∀ a ∈ program, IsName a.name) (rest : List Char) :
    readGroup (Assignments.print program ++ emitVarEnd ++ rest) = (program, rest) := by
  have hend : readOne (emitVarEnd ++ rest) = none := rfl
  have hlen := length_le_print program
  unfold readGroup
  rw [List.append_assoc, read_print hnames hend (by rw [List.length_append]; omega)]
  simp

/-- A reader gets back what a section assigns, and then reaches the snippet. -/
theorem Describes.readSection_print (h : Describes scriptPath e s) (rest : List Char) :
    readSection (s.print ++ rest) = (s.info, s.ccInfo, s.memInfo, writeText s.text ++ rest) := by
  have hnames : ∀ a ∈ s.assignments, IsName a.name := h.isName
  simp only [Section.assignments, List.forall_mem_append] at hnames
  obtain ⟨⟨hinfo, hcc⟩, hmem⟩ := hnames
  have hprint : s.print ++ rest = Assignments.print s.info ++ emitVarEnd ++
      (Assignments.print s.ccInfo ++ emitVarEnd ++
        (Assignments.print s.memInfo ++ emitVarEnd ++ (writeText s.text ++ rest))) := by
    simp only [Section.print, List.append_assoc]
  unfold readSection
  rw [hprint, readGroup_print hinfo]
  dsimp only
  rw [readGroup_print hcc]
  dsimp only
  rw [readGroup_print hmem]

theorem readSection_sections {events : List CodeEvent} {sections : List Section}
    (h : List.Forall₂ (Describes scriptPath) events sections) :
    ∀ s ∈ sections, ∀ rest, readSection (s.print ++ rest) =
      (s.info, s.ccInfo, s.memInfo, writeText s.text ++ rest) := by
  induction h with
  | nil => exact List.forall_mem_nil _
  | cons hdescribes _ ih => exact List.forall_mem_cons.mpr ⟨hdescribes.readSection_print, ih⟩

end Text

/-! ## Runs -/

/-- The answers of the kernel at an event. -/
structure Answers where
  info : List UInt8
  infoLen : Nat
  ccInfo : List UInt8
  ccLen : Nat
  memInfo : List UInt8
  memLen : Nat

namespace Answers

structure AreOf (a : Answers) (e : CodeEvent) : Prop where
  info : getData e .tcpInfo = some (a.info, a.infoLen)
  ccInfo : getData e .tcpCcInfo = some (a.ccInfo, a.ccLen)
  memInfo : getData e .soMeminfo = some (a.memInfo, a.memLen)

def fragments (a : Answers) (text : CodeText) : List CodeFragment :=
  [.data ⟨a.info, .tcpInfo, a.infoLen⟩, .data ⟨a.ccInfo, .tcpCcInfo, a.ccLen⟩,
    .data ⟨a.memInfo, .soMeminfo, a.memLen⟩, .text text]

def toSection (a : Answers) (text : CodeText) : Section :=
  ⟨symbols ++ values tcpInfoFields a.info, ccValues a.ccInfo a.ccLen,
    values meminfoFields a.memInfo, text⟩

/-- No assertion fails when the answers are written. -/
def Complete (a : Answers) : Prop := 192 ≤ a.infoLen ∧ 36 ≤ a.memLen

end Answers

/-- The snippet of an event. -/
def CodeEvent.codeText (scriptPath : List Char) (e : CodeEvent) : CodeText :=
  ⟨e.text, scriptPath, e.lineNumber⟩

/-- The kernel has answered at full length. -/
def CodeEvent.Complete (e : CodeEvent) : Prop :=
  ∀ dataType ≠ .tcpCcInfo, ∀ data len, getData e dataType = some (data, len) →
    dataLen dataType ≤ len

/-- A snippet on a kernel whose algorithm for congestion control says nothing. -/
def snippetEvent : CodeEvent where
  lineNumber := 7
  text := "assert tcpi_rto == 0".toList
  hasSocket := true
  getsockopt dataType := some (List.replicate (if dataType = .tcpCcInfo then 0 else 232) 0)

section Runs

variable {e : CodeEvent} {s : Section} {scriptPath : List Char} {events : List CodeEvent}
  {code code' start : CodeState} {a : Answers} {error : String} {dataType : CodeDataT}
  {text : CodeText} {fragments more : List CodeFragment} {written : List Char}

theorem collectData_ok (hok : collectData code e dataType error = .ok code') :
    ∃ data len, getData e dataType = some (data, len) ∧
      code' = { code with
        dataType := some dataType
        fragments := code.fragments ++ [.data ⟨data, dataType, len⟩] } := by
  unfold collectData at hok
  split at hok
  · rename_i data len hget
    exact ⟨data, len, hget, (Except.ok.inj hok).symm⟩
  · cases hok

theorem collectAll_ok (hok : collectAll scriptPath code e = .ok code') :
    ∃ a : Answers, a.AreOf e ∧ code' = { code with
      dataType := some .soMeminfo
      fragments := code.fragments ++ a.fragments (e.codeText scriptPath) } := by
  unfold collectAll at hok
  split at hok
  · cases hok
  · obtain ⟨codeInfo, hinfo, hok⟩ := bind_eq_ok_iff.mp hok
    obtain ⟨codeCc, hcc, hok⟩ := bind_eq_ok_iff.mp hok
    obtain ⟨codeMem, hmem, hok⟩ := bind_eq_ok_iff.mp hok
    obtain ⟨info, infoLen, hget, rfl⟩ := collectData_ok hinfo
    obtain ⟨ccInfo, ccLen, hgetCc, rfl⟩ := collectData_ok hcc
    obtain ⟨memInfo, memLen, hgetMem, rfl⟩ := collectData_ok hmem
    refine ⟨⟨info, infoLen, ccInfo, ccLen, memInfo, memLen⟩, ⟨hget, hgetCc, hgetMem⟩, ?_⟩
    rw [← Except.ok.inj hok]
    simp [appendText, appendFragment, Answers.fragments, CodeEvent.codeText]

/-- An event that succeeds adds its answers and its snippet. -/
theorem runCodeEvent_ok (hok : runCodeEvent scriptPath code e = .ok code') :
    ∃ a : Answers, a.AreOf e ∧ code' = { code with
      dataType := some .soMeminfo
      fragments := code.fragments ++ a.fragments (e.codeText scriptPath) } := by
  refine collectAll_ok ?_
  unfold runCodeEvent at hok
  cases hcollect : collectAll scriptPath code e with
  | ok code => exact congrArg _ (Except.ok.inj (hcollect ▸ hok))
  | error error => rw [hcollect] at hok; cases hok

theorem runCodeEvent_of_answers (hsocket : e.hasSocket = true) (ha : a.AreOf e) :
    ∃ code', runCodeEvent scriptPath code e = .ok code' := by
  have hcollect : ∃ code', collectAll scriptPath code e = .ok code' := by
    simp only [collectAll, hsocket, collectData, ha.info, ha.ccInfo, ha.memInfo]
    exact ⟨_, rfl⟩
  obtain ⟨code', hcollect⟩ := hcollect
  exact ⟨code', by rw [runCodeEvent, hcollect]; rfl⟩

/-- A script adds the answers and snippets of its events, in their order. -/
theorem runCodeEvents_ok (hok : runCodeEvents scriptPath code events = .ok code') :
    ∃ answers : List Answers, List.Forall₂ Answers.AreOf answers events ∧
      code'.path = code.path ∧ code'.commandLine = code.commandLine ∧
      code'.fragments = code.fragments ++
        (List.zipWith (fun a e => a.fragments (e.codeText scriptPath)) answers events).flatten := by
  induction events generalizing code with
  | nil => exact ⟨[], .nil, by cases hok; simp⟩
  | cons e events ih =>
    obtain ⟨middle, hrun, hok⟩ := bind_eq_ok_iff.mp hok
    obtain ⟨a, ha, rfl⟩ := runCodeEvent_ok hrun
    obtain ⟨answers, hanswers, hpath, hcommand, hfragments⟩ := ih hok
    refine ⟨a :: answers, .cons ha hanswers, hpath, hcommand, ?_⟩
    rw [hfragments]
    simp

/-! ## The file -/

theorem writeAllFragments_append :
    writeAllFragments (fragments ++ more) = .ok written ↔
      ∃ first rest, writeAllFragments fragments = .ok first ∧
        writeAllFragments more = .ok rest ∧ written = first ++ rest := by
  induction fragments generalizing written with
  | nil => simp [writeAllFragments]
  | cons fragment fragments ih =>
    simp only [List.cons_append, writeAllFragments, bind_eq_ok_iff, pure_eq_ok_iff, ih]
    grind

theorem writeTcpInfo_eq_ok {info : List UInt8} {len : Nat} :
    writeTcpInfo info len = .ok written ↔ 192 ≤ len ∧
      written = Assignments.print (symbols ++ values tcpInfoFields info) ++ emitVarEnd := by
  simp only [writeTcpInfo, bind_eq_ok_iff, require_eq_ok_iff, pure_eq_ok_iff, print_append]
  grind

theorem writeTcpCcInfo_eq {info : List UInt8} {len : Nat} :
    writeTcpCcInfo info len = Assignments.print (ccValues info len) ++ emitVarEnd := by
  simp only [writeTcpCcInfo, writeTcpBbrCcInfo, writeTcpDctcpCcInfo, writeTcpVegasCcInfo, ccValues,
    print_append]
  grind [Assignments.print]

theorem writeSoMeminfo_eq_ok {memInfo : List UInt8} {len : Nat} :
    writeSoMeminfo memInfo len = .ok written ↔ 36 ≤ len ∧
      written = Assignments.print (values meminfoFields memInfo) ++ emitVarEnd := by
  simp only [writeSoMeminfo, bind_eq_ok_iff, require_eq_ok_iff, pure_eq_ok_iff]
  grind

/-- What is kept of an event is written as its section, or an assertion fails. -/
theorem Answers.writeAllFragments_eq_ok :
    writeAllFragments (a.fragments text) = .ok written ↔
      a.Complete ∧ written = (a.toSection text).print := by
  constructor
  · intro hok
    simp only [Answers.fragments, writeAllFragments, writeFragment, writeData, bind_eq_ok_iff,
      pure_eq_ok_iff, writeTcpInfo_eq_ok, writeSoMeminfo_eq_ok, writeTcpCcInfo_eq] at hok
    obtain ⟨_, ⟨hinfo, rfl⟩, _, ⟨_, hcc, _, ⟨_, ⟨hmem, rfl⟩, _, ⟨_, htext, _, hend, rfl⟩, rfl⟩,
      rfl⟩, rfl⟩ := hok
    cases hcc
    cases htext
    cases hend
    refine ⟨⟨hinfo, hmem⟩, ?_⟩
    simp [Section.print, toSection]
  · rintro ⟨⟨hinfo, hmem⟩, rfl⟩
    simp only [Answers.fragments, writeAllFragments, writeFragment, writeData,
      writeTcpInfo_eq_ok.mpr ⟨hinfo, rfl⟩, writeSoMeminfo_eq_ok.mpr ⟨hmem, rfl⟩, writeTcpCcInfo_eq]
    simp [Section.print, toSection, bind, Except.bind, pure, Except.pure]

theorem Answers.AreOf.describes (h : a.AreOf e) :
    Describes scriptPath e (a.toSection (e.codeText scriptPath)) :=
  ⟨⟨a.info, a.infoLen, h.info, rfl⟩, ⟨a.ccInfo, a.ccLen, h.ccInfo, rfl⟩,
    ⟨a.memInfo, a.memLen, h.memInfo, rfl⟩, rfl⟩

theorem Answers.AreOf.complete_iff (h : a.AreOf e) : a.Complete ↔ e.Complete := by
  constructor
  · rintro ⟨hinfo, hmem⟩ dataType hne data len hget
    cases dataType with
    | tcpInfo =>
      cases h.info.symm.trans hget
      exact hinfo
    | tcpCcInfo => exact absurd rfl hne
    | soMeminfo =>
      cases h.memInfo.symm.trans hget
      exact hmem
  · exact fun hcomplete => ⟨hcomplete .tcpInfo (by decide) _ _ h.info,
      hcomplete .soMeminfo (by decide) _ _ h.memInfo⟩

/-- The sections of a script, from the answers at its events. -/
def toSections (scriptPath : List Char) (answers : List Answers) (events : List CodeEvent) :
    List Section :=
  List.zipWith (fun a e => a.toSection (e.codeText scriptPath)) answers events

theorem describes_toSections {answers : List Answers}
    (h : List.Forall₂ Answers.AreOf answers events) :
    List.Forall₂ (Describes scriptPath) events (toSections scriptPath answers events) := by
  induction h with
  | nil => exact .nil
  | cons ha _ ih => exact .cons ha.describes ih

/-- The fragments of a script are written as its sections, or an assertion fails. -/
theorem writeAllFragments_zipWith {answers : List Answers}
    (h : List.Forall₂ Answers.AreOf answers events) :
    writeAllFragments
        (List.zipWith (fun a e => a.fragments (e.codeText scriptPath)) answers events).flatten =
        .ok written ↔
      (∀ e ∈ events, e.Complete) ∧
        written = (toSections scriptPath answers events).flatMap Section.print := by
  induction h generalizing written with
  | nil => simp [writeAllFragments, toSections, eq_comm]
  | cons ha _ ih =>
    simp only [List.zipWith_cons_cons, List.flatten_cons, writeAllFragments_append,
      Answers.writeAllFragments_eq_ok, ha.complete_iff, ih, toSections, List.flatMap_cons,
      List.forall_mem_cons]
    grind

theorem codeNew_ok {config : CodeConfig} (hok : codeNew config = .ok start) :
    start.fragments = [] ∧ start.path = none ∧
      start.commandLine = config.codeCommandLine.toList := by
  unfold codeNew at hok
  dsimp only at hok
  split_ifs at hok <;> cases hok <;> exact ⟨rfl, rfl, rfl⟩

/-- At the end of a script its code, if there is any, is written to a file and run. No assertion
fails on the way exactly if the kernel has answered at full length at each event; then the file says
in front of each snippet what the kernel answered there, a reader gets that back, and the snippet
starts with these values, whatever the others before it have done. -/
theorem codeExecute_meaning {config : CodeConfig} {world : World}
    (hstart : codeNew config = .ok start)
    (hevents : runCodeEvents scriptPath start events = .ok code) :
    ((∃ outcome, codeExecute world code = .ok outcome) ↔ ∀ e ∈ events, e.Complete) ∧
    ∀ done actions result, codeExecute world code = .ok (done, actions, result) →
      ∃ sections : List Section, List.Forall₂ (Describes scriptPath) events sections ∧
        actions = (if events = [] then [] else
          [.wrote world.path (preamble ++ sections.flatMap Section.print),
            .ran (config.codeCommandLine.toList ++ [' '] ++ world.path), .unlinked world.path]) ∧
        (∀ s ∈ sections, ∀ rest, readSection (s.print ++ rest) =
          (s.info, s.ccInfo, s.memInfo, writeText s.text ++ rest)) ∧
        ∀ effect env, List.Forall₂ Shows events (startEnvs effect env sections) := by
  obtain ⟨hempty, hpath, hcommand⟩ := codeNew_ok hstart
  obtain ⟨answers, hanswers, hcodePath, hcodeCommand, hfragments⟩ := runCodeEvents_ok hevents
  rw [hempty, List.nil_append] at hfragments
  have hdescribes :
      List.Forall₂ (Describes scriptPath) events (toSections scriptPath answers events) :=
    describes_toSections hanswers
  have hnone : code.fragments = [] ↔ events = [] := by
    rw [hfragments]
    cases hanswers <;> simp [Answers.fragments]
  have hexecute (outcome) : codeExecute world code = .ok outcome ↔
      (∀ e ∈ events, e.Complete) ∧ outcome = if events = [] then (code, [], .ok ()) else
        ({ code with path := some world.path },
          [.wrote world.path (preamble ++
            (toSections scriptPath answers events).flatMap Section.print),
            .ran (config.codeCommandLine.toList ++ [' '] ++ world.path), .unlinked world.path],
          commandResult world config.codeCommandLine.toList) := by
    by_cases hevents : events = []
    · simp [codeExecute, hnone, hevents, eq_comm]
    · simp only [codeExecute, hnone, hevents, if_false, bind_eq_ok_iff, require_eq_ok_iff,
        pure_eq_ok_iff, hcodePath, hpath, hcodeCommand, hcommand]
      rw [hfragments]
      simp only [writeAllFragments_zipWith hanswers]
      grind
  constructor
  · simp [hexecute]
  · intro done actions result hok
    have houtcome := ((hexecute _).mp hok).2
    refine ⟨toSections scriptPath answers events, hdescribes, ?_, readSection_sections hdescribes,
      fun effect env => shows_startEnvs effect hdescribes env⟩
    have hactions := congrArg (fun outcome => outcome.2.1) houtcome
    dsimp only at hactions
    rw [hactions]
    split_ifs <;> rfl

theorem getData_snippetEvent (dataType : CodeDataT) : ∃ data, getData snippetEvent dataType =
    some (data, min (dataLen dataType) (if dataType = .tcpCcInfo then 0 else 232)) :=
  ⟨_, by
    simp only [getData, snippetEvent, Option.map_some, List.length_take, List.length_replicate]
    rfl⟩

theorem snippetEvent_complete : snippetEvent.Complete := by
  intro dataType hne data len hget
  obtain ⟨stored, hstored⟩ := getData_snippetEvent dataType
  rw [hget, if_neg hne] at hstored
  have hlen : len = min (dataLen dataType) 232 := (Prod.mk.inj (Option.some.inj hstored)).2
  rw [hlen]
  cases dataType <;> decide

/-- The script is `snippetEvent` alone, and its file is written. -/
theorem codeExecute_meaning_snippetEvent :
    ∃ start code sections, codeNew ⟨"python", "", "/usr/bin/python"⟩ = .ok start ∧
      runCodeEvents "a.pkt".toList start [snippetEvent] = .ok code ∧
      List.Forall₂ (Describes "a.pkt".toList) [snippetEvent] sections ∧
      ∀ effect env, List.Forall₂ Shows [snippetEvent] (startEnvs effect env sections) := by
  obtain ⟨start, hstart⟩ : ∃ start, codeNew ⟨"python", "", "/usr/bin/python"⟩ = .ok start :=
    ⟨_, rfl⟩
  obtain ⟨code, hcode⟩ : ∃ code, runCodeEvents "a.pkt".toList start [snippetEvent] = .ok code := by
    obtain ⟨info, hinfo⟩ := getData_snippetEvent .tcpInfo
    obtain ⟨ccInfo, hcc⟩ := getData_snippetEvent .tcpCcInfo
    obtain ⟨memInfo, hmem⟩ := getData_snippetEvent .soMeminfo
    obtain ⟨code, hcode⟩ := @runCodeEvent_of_answers snippetEvent "a.pkt".toList start
      ⟨info, _, ccInfo, _, memInfo, _⟩ rfl ⟨hinfo, hcc, hmem⟩
    exact ⟨code, bind_of_ok hcode⟩
  obtain ⟨hwritten, hmeaning⟩ :=
    @codeExecute_meaning "a.pkt".toList [snippetEvent] code start _
      ⟨"/tmp/code_a".toList, 0, "Success", fun signal => s!"Unknown signal {signal}"⟩ hstart hcode
  obtain ⟨⟨done, actions, result⟩, hok⟩ :=
    hwritten.mpr (List.forall_mem_singleton.mpr snippetEvent_complete)
  obtain ⟨sections, hdescribes, _, _, hshows⟩ := hmeaning done actions result hok
  exact ⟨start, code, sections, hstart, hcode, hdescribes, hshows⟩

end Runs

end QoSMos.Code
