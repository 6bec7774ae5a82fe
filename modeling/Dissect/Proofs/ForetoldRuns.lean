/-
# What a diagnosis foretells

The diagnosis of a service and a disassembly look at the installation at different times: by the
time the tool is opened a new class file is on the disk.  Its name is drawn at random, and where
nothing mentions it (`namesMentioned`), no path that either of them follows leads by it; so what
the diagnosis says of the installation is what the disassembly finds
(`Service.disassemble_as_resolved`).

If the diagnosis gives an error, the disassembly has it for its reason; if the tool does not
resolve, its entry point is never reached and nothing of it is loaded; and if javap resolves, the
command that the diagnosis tells is the one that is run.
-/
import Dissect.Proofs.AvoidedNames
import Dissect.Proofs.Escapes
import Dissect.Proofs.ProgramRuns
import Mathlib.Data.List.Find

namespace Dissect

open Files (Disk Through Tree through_whole)

/-! ## 1. Names that are not looked for -/

/-- A name under which no tool and no code of a tool is looked for. -/
structure Unsought (name : String) : Prop where
  places : name ∉ ["bin", "usr", "java", "java.exe", "javap", "javap.exe", "__init__"]
  code : Import.NoCodeFile name

namespace Disposable

theorem suffix_fileName (n : Nat) : ".class".toList <:+ (fileName n).toList := by
  unfold fileName
  rw [String.toList_append]
  exact List.suffix_append _ _

theorem fileName_unsought (n : Nat) : Unsought (fileName n) := by
  refine ⟨fun hm => ?_, fun suffix hs hcode => ?_⟩
  · have hall : ∀ text ∈ ["bin", "usr", "java", "java.exe", "javap", "javap.exe", "__init__"],
        ¬ ".class".toList <:+ text.toList := by decide
    exact hall _ hm (suffix_fileName n)
  · have hall : ∀ suffix ∈ CodeForm.suffixes, ¬ ".class".toList <:+ suffix.1.toList ∧
        ¬ suffix.1.toList <:+ ".class".toList := by decide
    exact (List.suffix_or_suffix_of_suffix hcode (suffix_fileName n)).elim (hall suffix hs).2
      (hall suffix hs).1

/-- The name of a class file is no part of a path without a dot. -/
theorem not_through_of_no_dot {n : Nat} {text : String} (h : '.' ∉ text.toList) :
    ¬ Through (fileName n) text := by
  intro hthrough
  obtain ⟨piece, hpiece, hname⟩ := List.mem_map.mp hthrough
  have hdot : '.' ∈ piece := by
    have hmem := (suffix_fileName n).subset (by decide : '.' ∈ ".class".toList)
    rw [← hname, String.toList_ofList] at hmem
    exact hmem
  exact h (Text.mem_of_mem_splitChars hpiece hdot)

end Disposable

/-- The texts of the variables by which Java is found: its home, and the directories of the search
path. -/
def JavaTools.placesNamed (host : Host) : List String :=
  (host.environmentValue "JAVA_HOME").toList ++
    (host.environmentValue "PATH").toList.flatMap fun directories => Text.splitAt directories ':'

/-- The texts of the links of a disk. -/
def Files.Disk.linkTexts (disk : Disk) : List String :=
  disk.tree.nodes.filterMap fun entry =>
    match entry.2 with
    | .link target => some target
    | _ => none

/-- The names by which a tool is looked for: those on the way to its root and to the working
directory, and those in the links and in the variables by which Java is found. -/
def namesMentioned (root : Path) (host : Host) : List String :=
  root.parts ++ host.disk.cwd ++
    (host.disk.linkTexts ++ JavaTools.placesNamed host).flatMap fun text => Text.splitAt text '/'

section Mentioned

variable {name : String} {root : Path} {host : Host}

theorem not_through_of_not_mentioned (h : name ∉ namesMentioned root host) {text : String}
    (ht : text ∈ host.disk.linkTexts ++ JavaTools.placesNamed host) : ¬ Through name text :=
  fun hthrough => h (List.mem_append_right _ (List.mem_flatMap.mpr ⟨text, ht, hthrough⟩))

theorem Files.Disk.mem_linkTexts {disk : Disk} {l : Files.Location} {target : String}
    (h : disk.tree.get? l = some (.link target)) : target ∈ disk.linkTexts := by
  by_cases hl : l = []
  · rw [hl, Files.Tree.get?, if_pos rfl] at h
    cases h
  · exact List.mem_filterMap.mpr ⟨(l, .link target), Files.Tree.mem_of_get? hl h, rfl⟩

end Mentioned

/-! ## 2. The same tool is found -/

section Beside

variable {name : String} {root : Path} {host other : Host}

namespace JavaTools

variable {tools : JavaTools}

theorem isProgram_beside {d d' : Disk} (h : d.AlikeBeside name d') {path : String}
    (hp : ¬ Through name path) : isProgram d' path = isProgram d path := by
  unfold isProgram
  rw [h.stat hp, h.canExecute hp]

/-- The variables of the hosts are the same, and name only what the disks have in common. -/
structure SearchAlike (name : String) (host other : Host) : Prop where
  disk : host.disk.AlikeBeside name other.disk
  environment : other.environment = host.environment
  unsought : Unsought name
  javaHome : ∀ home, host.environmentValue "JAVA_HOME" = some home → ¬ Through name home
  searchPath : ∀ directories, host.environmentValue "PATH" = some directories →
    ∀ directory ∈ Text.splitAt directories ':', ¬ Through name directory

/-- On a host that does not mention a name, another host whose disk has something new of that name
and is the same otherwise. -/
theorem SearchAlike.of_not_mentioned {loc : Files.Location}
    (h : name ∉ namesMentioned root host) (hd : host.disk.WellFormed) (hplain : Path.IsPlain name)
    (hup : name ≠ "..") (hn : Unsought name) (hmem : name ∈ loc)
    (hsame : Files.SameBut host.disk loc other.disk) (hdenied : other.disk.denied = host.disk.denied)
    (henvironment : other.environment = host.environment) : SearchAlike name host other where
  disk := {
    plain := hplain
    up := hup
    nodes := fun l hl => hsame.others l fun he => hl (he ▸ hmem)
    links := fun l target _ ht =>
      not_through_of_not_mentioned h (List.mem_append_left _ (Files.Disk.mem_linkTexts ht))
    cwd := hsame.cwd
    away := fun hm => h (List.mem_append_left _ (List.mem_append_right _ hm))
    whole := fun part hm => (hd.cwd part hm).2.2
    denied := hdenied }
  environment := henvironment
  unsought := hn
  javaHome := fun home hhome => not_through_of_not_mentioned h <| List.mem_append_right _ <|
    List.mem_append_left _ (by rw [hhome]; exact List.mem_singleton.mpr rfl)
  searchPath := fun directories hpath directory hm => not_through_of_not_mentioned h <|
    List.mem_append_right _ <| List.mem_append_right _ <|
      List.mem_flatMap.mpr ⟨directories, by rw [hpath]; exact List.mem_singleton.mpr rfl, hm⟩

theorem SearchAlike.value (h : SearchAlike name host other) (key : String) :
    other.environmentValue key = host.environmentValue key := by
  unfold Host.environmentValue
  rw [h.environment]

theorem findOnPath_beside (h : SearchAlike name host other) :
    findOnPath other "java" = findOnPath host "java" := by
  have hjava : ¬ Through name "java" := fun hthrough =>
    h.unsought.places (by simp [(through_whole (by decide)).mp (show Through name "java" from hthrough)])
  have hdirectory : ∀ directory ∈
      Text.splitAt ((host.environmentValue "PATH").getD "/bin:/usr/bin") ':',
      ¬ Through name directory := by
    cases hpath : host.environmentValue "PATH" with
    | some directories => exact h.searchPath directories hpath
    | none =>
      have hdefault : ∀ directory ∈ Text.splitAt "/bin:/usr/bin" ':',
          ∀ part ∈ Text.splitAt directory '/', part = "" ∨ part = "bin" ∨ part = "usr" := by
        decide
      intro directory hm hthrough
      have hplaces := h.unsought.places
      rcases hdefault directory hm name hthrough with he | he | he
      · exact h.disk.plain.1 he
      · exact hplaces (by simp [he])
      · exact hplaces (by simp [he])
  unfold findOnPath
  simp only [h.value]
  split
  · rfl
  · refine List.find?_congr fun path hm => ?_
    obtain ⟨directory, hd, rfl⟩ := List.mem_map.mp hm
    exact isProgram_beside h.disk fun hthrough =>
      (Files.through_inDirectory hthrough).elim (hdirectory directory hd) hjava

theorem findJava_beside (h : SearchAlike name host other) :
    tools.findJava other = tools.findJava host := by
  have hplaces := h.unsought.places
  simp only [List.mem_cons, List.not_mem_nil, or_false, not_or] at hplaces
  obtain ⟨hbin, -, hjava, hexe, -⟩ := hplaces
  unfold findJava
  rw [h.value, findOnPath_beside h]
  cases hhome : host.environmentValue "JAVA_HOME" with
  | none => rfl
  | some home =>
    have hroot : (Path.ofText home).Avoids name := .of_proper (Path.ofText_proper home) fun hm =>
      h.javaHome home hhome (List.mem_filter.mp hm).1
    have hplace : (((Path.ofText home).child "bin").child (tools.executable "java")).Avoids
        name := by
      have hbinPath := hroot.child (by decide) hbin
      unfold executable
      split
      · exact hbinPath.child (by decide) hexe
      · exact hbinPath.child (by decide) hjava
    simp only [Disk.isFile, h.disk.check hplace]

theorem jarCommand_beside (h : SearchAlike name host other) (hroot : tools.root.Avoids name) :
    tools.jarCommand other = tools.jarCommand host := by
  unfold jarCommand
  simp only [h.disk.canRead (hroot.not_through h.disk.plain), findJava_beside h]

theorem firstCommand_beside {d d' : Disk} (h : d.AlikeBeside name d') : ∀ {places : List Path},
    (∀ place ∈ places, place.Avoids name) →
      tools.firstCommand d' places = tools.firstCommand d places
  | [], _ => rfl
  | place :: rest, hplaces => by
    have hplace := hplaces place List.mem_cons_self
    have ih := firstCommand_beside h fun p hm => hplaces p (List.mem_cons_of_mem _ hm)
    unfold firstCommand
    simp only [Disk.isFile, h.check hplace, h.canExecute (hplace.not_through h.plain), ih]

theorem avoids_javapPlaces (hn : Unsought name) (hroot : tools.root.Avoids name) :
    ∀ place ∈ tools.javapPlaces, place.Avoids name := by
  have hplaces := hn.places
  simp only [List.mem_cons, List.not_mem_nil, or_false, not_or] at hplaces
  obtain ⟨hbin, -, -, -, hjavap, hexe, -⟩ := hplaces
  have hexecutable : name ≠ tools.executable "javap" := by
    rcases executable_cases tools with he | he <;> rw [he]
    · exact hjavap
    · exact hexe
  have hplain := executable_plain tools
  intro place hm
  simp only [javapPlaces, List.mem_cons, List.not_mem_nil, or_false] at hm
  rcases hm with rfl | rfl
  · exact (hroot.child (by decide) hbin).child hplain hexecutable
  · exact hroot.child hplain hexecutable

/-- **The same command is found.** -/
theorem command_beside (h : SearchAlike name host other) (hroot : tools.root.Avoids name) :
    tools.command other = tools.command host := by
  have hthrough := hroot.not_through h.disk.plain
  unfold command
  simp only [Disk.exists?, Disk.isFile, h.disk.check hroot, h.disk.canRead hthrough,
    h.disk.canExecute hthrough, jarCommand_beside h hroot,
    firstCommand_beside h.disk (avoids_javapPlaces h.unsought hroot)]

end JavaTools

namespace ModuleTools

variable {tools : ModuleTools} {d d' : Disk}

/-- **The same directory is found**, and its link-free form does not go by the name either. -/
theorem checkedRoot_beside (tools : ModuleTools) (h : d.AlikeBeside name d')
    (hroot : tools.root.Avoids name) :
    tools.checkedRoot d' = tools.checkedRoot d ∧
      ∀ base, tools.checkedRoot d = .ok base → base.Avoids name := by
  have hthrough := hroot.not_through h.plain
  obtain ⟨hsame, hbase⟩ := h.resolve hroot
  unfold checkedRoot
  simp only [Disk.exists?, Disk.isDirectory, h.check hroot, h.canRead hthrough,
    h.canExecute hthrough, hsame]
  exact ⟨trivial, fun base hok => hbase base (of_checkedRoot hok).2.2⟩

theorem isFound_beside (tools : ModuleTools) (h : d.AlikeBeside name d') (hn : Unsought name)
    {base : Path} (hbase : base.Avoids name)
    (htop : ¬ Through name (Import.lastComponent tools.topLevel)) :
    tools.isFound d' base = tools.isFound d base := by
  have hinit : ¬ Through name "__init__" := fun hthrough =>
    hn.places (by simp [(through_whole (by decide)).mp (show Through name "__init__" from hthrough)])
  unfold isFound
  rw [Import.find_beside h hn.code hinit htop fun directory hm => by
    rw [List.mem_singleton.mp hm]
    exact hbase.not_through h.plain]

end ModuleTools

/-- **The tool of a backend resolves in the same way.** -/
theorem Backend.resolution_beside {b : Backend} (h : JavaTools.SearchAlike name host other)
    (hroot : root.Avoids name) (htop : ∀ entry entryText, b.engine = .module entry entryText →
      ¬ Through name (Import.lastComponent entry.topLevel)) :
    b.resolution root other = b.resolution root host := by
  unfold resolution
  cases hb : b.engine with
  | javap =>
    simp only [JavaTools.describe]
    rw [JavaTools.command_beside h hroot]
  | module entry entryText =>
    obtain ⟨hsame, hbase⟩ := ModuleTools.checkedRoot_beside
      ⟨root, entry, entryText⟩ h.disk hroot
    simp only [ModuleTools.describe]
    rw [hsame]
    cases hc : (⟨root, entry, entryText⟩ : ModuleTools).checkedRoot host.disk with
    | error fault => rfl
    | ok base =>
      simp only
      rw [ModuleTools.isFound_beside ⟨root, entry, entryText⟩ h.disk h.unsought
        (hbase base hc) (htop entry entryText hb)]

end Beside

/-! ## 3. The failures of a loader -/

/-- A failure that is the loader's own says what stands in the way: something, and nothing else. -/
def TellsOwn (root : Path) (fault : Fault) : Prop :=
  fault.isA .toolLoadError = true → ∃ message, message ≠ "" ∧
    (fault = ModuleTools.loadFault root message ∨ fault = ModuleTools.accessFault root message)

/-- **Every failure of its own to find a tool tells what stands in the way.** -/
theorem FindingFault.tellsOwn {root : Path} {fault : Fault} (h : FindingFault root fault) :
    TellsOwn root fault := by
  intro hown
  cases h with
  | asked e path => cases e <;> cases hown
  | unresolved hresolve =>
    rw [ModuleTools.resolve_not_own hresolve] at hown
    cases hown
  | load hmessage => exact ⟨_, hmessage, .inl rfl⟩
  | access hmessage => exact ⟨_, hmessage, .inr rfl⟩

namespace Classifier

/-- **What comes of a failure of the loader's own.**  A denial of access is told as it is, and any
other one with its class. -/
theorem classify_own (c : Classifier) (root : Path) (className : String) (toolRoot : Option Path)
    (captured : String) {message : String} (h : message ≠ "") :
    (∃ outcome diagnostic,
      c.classify (ModuleTools.accessFault root message) className toolRoot captured =
        .ok outcome ∧ outcome.kind = .permissionDenied ∧
        outcome.diagnostic = some diagnostic ∧ diagnostic.reason = some message) ∧
    ∃ outcome diagnostic,
      c.classify (ModuleTools.loadFault root message) className toolRoot captured =
        .ok outcome ∧ outcome.kind = .failure ∧
        outcome.diagnostic = some diagnostic ∧
        diagnostic.reason = some ("ToolLoadError: " ++ message) := by
  constructor
  · refine ⟨_, _, rfl, rfl, rfl, ?_⟩
    have hmessage : (ModuleTools.accessFault root message).message = message := rfl
    unfold Diagnostic.toolAccessDenied
    simp only [hmessage, if_neg h]
  · have hreport : ∃ report, (ModuleTools.loadFault root message).report = .ok report :=
      Fault.report_ok fun past hm => by
        simp only [ModuleTools.loadFault, Fault.history] at hm
        rw [List.mem_singleton.mp hm]
        rfl
    obtain ⟨trace, htrace⟩ := hreport
    have hfailed : ∃ outcome,
        c.failed (ModuleTools.loadFault root message) className captured = .ok outcome := by
      unfold failed Classifier.trace
      rw [htrace]
      exact ⟨_, rfl⟩
    obtain ⟨outcome, houtcome⟩ := hfailed
    obtain ⟨diagnostic, hdiagnostic, hreason, -⟩ := failed_tells houtcome
    refine ⟨outcome, diagnostic, houtcome, failed_kind houtcome, hdiagnostic, ?_⟩
    have hmessage : (ModuleTools.loadFault root message).message = message := rfl
    rw [hreason, Fault.reason, hmessage, if_neg h]
    rfl

end Classifier

/-! ## 4. The class file on the disk -/

namespace Service

variable {s : Service} {unit : ClassUnit} {root : Path} {host made : Host} {resource : Disposable}

/-- The outermost module of a tool has no dot in its name. -/
theorem dotless_topLevel (entry : EntryPoint) :
    '.' ∉ (Import.lastComponent entry.topLevel).toList := by
  unfold Import.lastComponent
  cases hlast : (Text.splitAt entry.topLevel '.').getLast? with
  | none => exact List.not_mem_nil
  | some piece =>
    obtain ⟨chars, hchars, rfl⟩ := List.mem_map.mp (List.mem_of_getLast? hlast)
    rw [Option.getD_some, String.toList_ofList]
    exact Text.not_mem_of_mem_splitChars hchars

/-- **Once the class file is made, the tool resolves as before**, unless the name of the file was
mentioned. -/
theorem resolution_toolStart (hdisk : host.disk.WellFormed)
    (htemp : ∀ directory, s.configuration.tempDirectory = some directory → directory.Proper)
    (hproper : root.Proper) (hmake : s.makeFile unit host = (.ok resource, made))
    (hfresh : resource.path.name ∉ namesMentioned root host) :
    s.backend.resolution root (toolStart made) = s.backend.resolution root host := by
  have hdir : (Disposable.directoryFor (setLock true host)
      s.configuration.tempDirectory).Proper :=
    Disposable.directoryFor_proper (by exact hdisk) htemp
  obtain ⟨-, -, hdenied⟩ := Disposable.create_keeps_paths hmake
  obtain ⟨n, loc, disk, namesTaken, hresource, hvacant, hsame, rfl⟩ :=
    Disposable.create_ok (by exact hdisk) htemp hmake
  have hplain := Disposable.fileName_plain n
  have hup := Disposable.fileName_ne_up n
  have hname : resource.path.name = Disposable.fileName n := by
    rw [hresource, Path.child_plain _ hplain]
    simp [Path.name]
  rw [hname] at hfresh
  have hlocate := hvacant.locate
  simp only [hresource] at hlocate
  obtain ⟨base, -, hloc, -⟩ := Files.Disk.locate_child hdir hplain hup hlocate
    fun he => absurd he Bool.false_ne_true
  have halike : JavaTools.SearchAlike (Disposable.fileName n) host
      (toolStart { setLock true host with disk, namesTaken }) :=
    .of_not_mentioned hfresh hdisk hplain hup (Disposable.fileName_unsought n)
      (by simp [hloc] : _ ∈ loc) hsame hdenied rfl
  exact Backend.resolution_beside halike
    (.of_proper hproper fun hm => hfresh (List.mem_append_left _ (List.mem_append_left _ hm)))
    fun entry _ _ => Disposable.not_through_of_no_dot (dotless_topLevel entry)

end Service

/-! ## 5. Tools that are not entered -/

/-- The tool cannot be opened: whatever would be done with its entry point, it comes to a failure
before, and all that changes is the order of the modules of the host. -/
def Backend.Barred (b : Backend) (root : Path) (host : Host) (fault : Fault) : Prop :=
  ∀ (α : Type) (use : (List String → Run Unit) → Run α), ∃ loaded,
    (b.withEntry root use).exec host =
        (.error fault, { host with modules := { host.modules with loaded } })

namespace Backend

variable {b : Backend} {root : Path} {host : Host} {fault : Fault} {r : Resolution}

theorem barred_of_command (hb : b.engine = .javap)
    (h : ({ root } : JavaTools).command host = .error fault) : b.Barred root host fault := by
  intro α use
  refine ⟨host.modules.loaded, ?_⟩
  rw [withEntry_javap hb]
  exact Run.exec_bind_error (by rw [Run.exec_query, h])

theorem barred_of_checkedRoot {entry : EntryPoint} {entryText : String}
    (hb : b.engine = .module entry entryText)
    (h : (⟨root, entry, entryText⟩ : ModuleTools).checkedRoot host.disk = .error fault) :
    b.Barred root host fault := by
  intro α use
  refine ⟨host.modules.loaded, ?_⟩
  rw [withEntry_module hb, ModuleTools.withEntry_exec_error h]

/-- A tool whose name is not found in its root is closed again at once. -/
theorem barred_of_isFound {entry : EntryPoint} {entryText : String} {base : Path}
    (hb : b.engine = .module entry entryText)
    (hbase : (⟨root, entry, entryText⟩ : ModuleTools).checkedRoot host.disk = .ok base)
    (h : (⟨root, entry, entryText⟩ : ModuleTools).isFound host.disk base = false) :
    b.Barred root host (ModuleTools.loadFault base
      ("Module '" ++ entry.topLevel ++ "' not found under " ++ base.text)) := by
  intro α use
  let tools : ModuleTools := ⟨root, entry, entryText⟩
  have hwithin : (tools.within base fun call => use fun arguments => (do let _ ← call arguments)).exec
      (tools.openedHost base host) =
        (.error (ModuleTools.loadFault base
          ("Module '" ++ entry.topLevel ++ "' not found under " ++ base.text)),
          tools.openedHost base host) := by
    refine ModuleTools.within_exec_error ?_
    rw [ModuleTools.enter_exec, if_neg]
    · rfl
    · show ¬ tools.isFound host.disk base = true
      rw [h]
      exact Bool.false_ne_true
  refine ⟨(tools.closedModules host.disk base host.modules
    (tools.opened base host.modules)).loaded, ?_⟩
  rw [withEntry_module hb, ModuleTools.withEntry_exec hbase]
  rcases ModuleTools.close_result tools base host.modules (tools.openedHost base host) with
    ⟨hok, -⟩ | ⟨trouble, -, -, hno⟩
  · refine Prod.ext ?_ ?_
    · rw [Run.exec_followedBy_result, hwithin, hok]
    · rw [Run.exec_followedBy_host, hwithin, ModuleTools.close_exec]
      rfl
  · exact absurd (ModuleTools.resolvable_opened _ _ _) hno

/-- **What a resolution of javap says of the command.**  It holds the command, or the text of a
failure of the loader's own to find one. -/
theorem resolution_javap (hb : b.engine = .javap) (h : b.resolution root host = .ok r) :
    (∃ command, ({ root } : JavaTools).command host = .ok command ∧
        r = .java ⟨root, .ok command⟩) ∨
      ∃ fault, ({ root } : JavaTools).command host = .error fault ∧
        fault.isA .toolLoadError = true ∧ r = .java ⟨root, .error fault.message⟩ := by
  simp only [resolution, hb, JavaTools.describe] at h
  cases hc : ({ root } : JavaTools).command host with
  | ok command =>
    simp only [hc] at h
    cases h
    exact .inl ⟨command, rfl, rfl⟩
  | error fault =>
    simp only [hc] at h
    split at h
    · rename_i hown
      cases h
      exact .inr ⟨fault, rfl, hown, rfl⟩
    · cases h

/-- **What a resolution of modules says of the root.**  It tells whether the name of the tool is
found there, or it holds the text of a failure of the loader's own to use the root. -/
theorem resolution_module {entry : EntryPoint} {entryText : String}
    (hb : b.engine = .module entry entryText) (h : b.resolution root host = .ok r) :
    let tools : ModuleTools := ⟨root, entry, entryText⟩
    (∃ base, tools.checkedRoot host.disk = .ok base ∧
        r = .modules ⟨root, entryText, .ok (tools.isFound host.disk base)⟩) ∨
      ∃ fault, tools.checkedRoot host.disk = .error fault ∧
        fault.isA .toolLoadError = true ∧ r = .modules ⟨root, entryText, .error fault.message⟩ := by
  intro tools
  simp only [resolution, hb, ModuleTools.describe] at h
  cases hc : tools.checkedRoot host.disk with
  | ok base =>
    simp only [show (⟨root, entry, entryText⟩ : ModuleTools) = tools from rfl, hc] at h
    cases h
    exact .inl ⟨base, rfl, rfl⟩
  | error fault =>
    simp only [show (⟨root, entry, entryText⟩ : ModuleTools) = tools from rfl, hc] at h
    split at h
    · rename_i hown
      cases h
      exact .inr ⟨fault, rfl, hown, rfl⟩
    · cases h

/-- **A tool that does not resolve cannot be opened**, and the failure is one of the loader's own.
If the diagnosis has an error text, it is that of the failure. -/
theorem barred_of_unresolved (h : b.resolution root host = .ok r) (hno : r.resolved = false) :
    ∃ base fault, b.Barred root host fault ∧ fault.isA .toolLoadError = true ∧
      TellsOwn base fault ∧ ∀ e, r.error? = some e → e = fault.message := by
  cases hb : b.engine with
  | javap =>
    rcases resolution_javap hb h with ⟨command, -, rfl⟩ | ⟨fault, hcommand, hown, rfl⟩
    · cases hno
    · refine ⟨root, fault, barred_of_command hb hcommand, hown,
        (JavaTools.command_troubles _ _ fault hcommand).tellsOwn, fun e he => ?_⟩
      cases he
      rfl
  | module entry entryText =>
    rcases resolution_module hb h with ⟨base, hbase, rfl⟩ | ⟨fault, hroot, hown, rfl⟩
    · have hnot : (⟨root, entry, entryText⟩ : ModuleTools).isFound host.disk base = false := hno
      have hmessage {text : String} : "Module '" ++ text ++ "' not found under " ++ base.text ≠ "" :=
        append_ne_empty (append_ne_empty (append_ne_empty (by decide) _) _) _
      refine ⟨base, _, barred_of_isFound hb hbase hnot, rfl, (FindingFault.load hmessage).tellsOwn,
        fun e he => ?_⟩
      cases he
    · refine ⟨root, fault, barred_of_checkedRoot hb hroot, hown,
        (ModuleTools.checkedRoot_troubles _ _ fault hroot).tellsOwn, fun e he => ?_⟩
      cases he
      rfl

/-- Nothing stands in the way of a tool that resolves. -/
theorem Resolution.resolved_of_error {e : String} (h : r.error? = some e) : r.resolved = false := by
  cases r with
  | java d =>
    obtain ⟨_, command⟩ := d
    cases command with
    | ok _ => cases h
    | error _ => rfl
  | modules d =>
    obtain ⟨_, _, found⟩ := d
    cases found with
    | ok _ => cases h
    | error _ => rfl

end Backend

/-! ## 6. Diagnosis and disassembly -/

namespace Service

variable {s : Service} {unit : ClassUnit} {root : Path} {host made : Host} {resource : Disposable}

/-- Where the tool cannot be opened, the outcome tells why. -/
theorem disassemble_of_barred {base : Path} {fault : Fault}
    (hroot : s.configuration.toolPath = some root) (hinvoker : s.invoker = Invocation.invoke)
    (hmake : s.makeFile unit host = (.ok resource, made))
    (hbarred : s.backend.Barred root (toolStart made) fault)
    (hown : fault.isA .toolLoadError = true) (htells : TellsOwn base fault) :
    ∃ outcome diagnostic, ((s.disassemble unit).exec host).1 = .ok outcome ∧
      outcome.diagnostic = some diagnostic ∧
      (outcome.kind = .permissionDenied ∧ diagnostic.reason = some fault.message ∨
        outcome.kind = .failure ∧
          diagnostic.reason = some ("ToolLoadError: " ++ fault.message)) := by
  obtain ⟨loaded, hinvoke⟩ := hbarred Unit fun call =>
    Invocation.watched s.backend.signals (call (s.backend.argumentsFor resource.path))
  rw [← Invocation.invoke_eq] at hinvoke
  have hending : (s.finishedOf root resource made).ending = .error fault := by
    unfold finishedOf
    rw [hinvoker, hinvoke]
  have hordinary : fault.kind.isOrdinary = true := Fault.IsOrdinary.of_isA rfl hown
  obtain ⟨message, hmessage, hfault⟩ := htells hown
  have hkind : Classifier.kindOf fault.kind ≠ .toolNotConfigured := by
    rcases hfault with rfl | rfl <;> nofun
  have hresult : ((s.disassemble unit).exec host).1 = s.classifier.classify fault unit.name
      (some root) (s.finishedOf root resource made).captured := by
    rw [disassemble_result hroot, hmake]
    simp only [verdict, hending, hordinary, if_true]
    exact handled_eq_classify hkind
  rcases hfault with rfl | rfl
  · obtain ⟨-, outcome, diagnostic, houtcome, hkind, hdiagnostic, hreason⟩ :=
      s.classifier.classify_own base unit.name (some root)
        (s.finishedOf root resource made).captured hmessage
    exact ⟨outcome, diagnostic, hresult.trans houtcome, hdiagnostic, .inr ⟨hkind, hreason⟩⟩
  · obtain ⟨⟨outcome, diagnostic, houtcome, hkind, hdiagnostic, hreason⟩, -⟩ :=
      s.classifier.classify_own base unit.name (some root)
        (s.finishedOf root resource made).captured hmessage
    exact ⟨outcome, diagnostic, hresult.trans houtcome, hdiagnostic, .inl ⟨hkind, hreason⟩⟩

/-- **What a diagnosis foretells.**  Let the tool have been diagnosed and the class file been made,
under a name that nothing mentions by which the tool is looked for.  If the diagnosis has an error
text, the disassembly is denied with that text for its reason, or fails with it after the name of
its class.  If the tool does not resolve, it cannot be opened, so no code of it runs and no program
is started, and the outcome is no success.  If javap resolves, the tool is run by calling the command
of the diagnosis, followed by the arguments. -/
theorem disassemble_as_resolved (s : Service) (unit : ClassUnit) (root : Path) (host : Host)
    {resource : Disposable} {made : Host} {r : Backend.Resolution}
    (hdisk : host.disk.WellFormed)
    (htemp : ∀ directory, s.configuration.tempDirectory = some directory → directory.Proper)
    (hproper : root.Proper) (hroot : s.configuration.toolPath = some root)
    (hinvoker : s.invoker = Invocation.invoke)
    (hmake : s.makeFile unit host = (.ok resource, made))
    (hfresh : resource.path.name ∉ namesMentioned root host)
    (hresolution : s.backend.resolution root host = .ok r) :
    let result := ((s.disassemble unit).exec host).1
    let start := toolStart made
    (∀ e, r.error? = some e → ∃ outcome diagnostic, result = .ok outcome ∧
      outcome.diagnostic = some diagnostic ∧
      (outcome.kind = .permissionDenied ∧ diagnostic.reason = some e ∨
        outcome.kind = .failure ∧ diagnostic.reason = some ("ToolLoadError: " ++ e))) ∧
    (r.resolved = false →
      (∃ fault, s.backend.Barred root start fault) ∧
        ∃ outcome, result = .ok outcome ∧ outcome.kind ≠ .success) ∧
    (s.backend.engine = .javap → r.resolved = true →
      ∃ command, r.command? = some command ∧
        (s.invoker s.backend root resource.path).exec start =
          (do
            let environment ← Run.query ({ root } : JavaTools).environment
            Invocation.watched s.backend.signals
              (Command.call command environment (s.backend.argumentsFor resource.path))).exec
            start) := by
  intro result start
  have hthere : s.backend.resolution root start = .ok r :=
    (resolution_toolStart hdisk htemp hproper hmake hfresh).trans hresolution
  refine ⟨fun e he => ?_, fun hno => ?_, fun hb hyes => ?_⟩
  · obtain ⟨base, fault, hbarred, hown, htells, hmessage⟩ :=
      Backend.barred_of_unresolved hthere (Backend.Resolution.resolved_of_error he)
    obtain rfl := hmessage e he
    exact disassemble_of_barred hroot hinvoker hmake hbarred hown htells
  · obtain ⟨base, fault, hbarred, hown, htells, -⟩ := Backend.barred_of_unresolved hthere hno
    obtain ⟨outcome, diagnostic, houtcome, -, hkind⟩ :=
      disassemble_of_barred hroot hinvoker hmake hbarred hown htells
    refine ⟨⟨fault, hbarred⟩, outcome, houtcome, fun hsuccess => ?_⟩
    rw [hsuccess] at hkind
    rcases hkind with ⟨hdenied, -⟩ | ⟨hfailed, -⟩
    · cases hdenied
    · cases hfailed
  · rcases Backend.resolution_javap hb hthere with ⟨command, hcommand, rfl⟩ | ⟨fault, -, -, rfl⟩
    · refine ⟨command, rfl, ?_⟩
      rw [hinvoker, Invocation.invoke_eq, Backend.withEntry_javap hb]
      exact Run.exec_bind_ok (by rw [Run.exec_query, hcommand])
    · cases hyes

/-- A javap that may not be executed: the diagnosis and the disassembly give the same reason. -/
theorem disassemble_denied_as_resolved :
    let s : Service := {
      backend := Backend.javap
      configuration := { toolPath := some ⟨.root, ["jdk"]⟩, tempDirectory := some ⟨.root, []⟩ } }
    let host : Host := {
      disk := { tree := ⟨[(["jdk"], .directory 0o755),
        (["jdk", "javap"], .file (.program {}) 0o644)]⟩ } }
    let e := "javap is not executable: /jdk/javap"
    ∃ outcome diagnostic, ((s.disassemble ⟨[], "Foo"⟩).exec host).1 = .ok outcome ∧
      outcome.diagnostic = some diagnostic ∧
      (outcome.kind = .permissionDenied ∧ diagnostic.reason = some e ∨
        outcome.kind = .failure ∧ diagnostic.reason = some ("ToolLoadError: " ++ e)) := by
  intro s host e
  let resource : Disposable := { path := ⟨.root, ["classview_aaaaaaaa.class"]⟩ }
  have hresource : (s.makeFile ⟨[], "Foo"⟩ host).1.toOption = some resource := by decide +kernel
  have hresolution : s.backend.resolution ⟨.root, ["jdk"]⟩ host =
      .ok (.java ⟨⟨.root, ["jdk"]⟩, .error e⟩) := rfl
  have hdisk : host.disk.WellFormed :=
    ⟨Tree.WellFormed.of_nodes (by decide), fun name hm => by cases hm⟩
  have htemp : ∀ directory, s.configuration.tempDirectory = some directory → directory.Proper := by
    rintro directory ⟨⟩
    decide
  have hproper : (⟨.root, ["jdk"]⟩ : Path).Proper := by decide
  rcases hmake : s.makeFile ⟨[], "Foo"⟩ host with ⟨result, made⟩
  rw [hmake] at hresource
  cases Run.ok_of_toOption hresource
  obtain ⟨herror, -⟩ := disassemble_as_resolved s ⟨[], "Foo"⟩ ⟨.root, ["jdk"]⟩ host hdisk htemp
    hproper rfl rfl hmake (by decide +kernel) hresolution
  exact herror e rfl

end Service

end Dissect
