/-
# What a tool made of modules is given, and what it gives

When the entry point of a tool is called, its last argument names a file that was not there before
the disassembly, and that holds the bytes of the class: nothing that runs while the tool is loaded
has been told the file's name, so nothing has touched it.  When the disassembly succeeds, its text is
what the tool's code wrote, first while it was loaded and then while it was called
(`Service.disassemble_with_modules`).

The file lies in the directory that is configured, with one proviso.  The directory's path is made
absolute as a text, and `..` takes the name before it away; if that name is a link, the path leads
to another directory than before, and this is where the file is.
-/
import Dissect.Proofs.ToolOutput

namespace Dissect

namespace Files

variable {d : Disk} {p : Path} {base : Location}

/-! ## 1. The absolute form of a path -/

/-- A path without `..` only gets the working directory before it. -/
theorem Disk.absolute_of_relative (hcwd : ∀ name ∈ d.cwd, Path.IsPlain name ∧ name ≠ "..")
    (hp : p.Proper) (hup : ".." ∉ p.parts) (hrelative : p.isAbsolute = false) :
    d.absolute p = ⟨.root, d.cwd ++ p.parts⟩ := by
  have hcollapse : Path.collapse (d.cwd ++ p.parts) = d.cwd ++ p.parts := by
    refine collapse_plain fun name hmem => ?_
    rcases List.mem_append.mp hmem with hbefore | hown
    · exact hcwd name hbefore
    · exact ⟨hp name hown, fun he => hup (he ▸ hown)⟩
  simp [absolute, locationOf, hrelative, hcollapse]

/-- An absolute path without `..` is its own absolute form. -/
theorem Disk.absolute_of_absolute (hp : p.Proper) (hup : ".." ∉ p.parts)
    (habsolute : p.isAbsolute = true) : d.absolute p = p := by
  have hcollapse : Path.collapse p.parts = p.parts :=
    collapse_plain fun name hown => ⟨hp name hown, fun he => hup (he ▸ hown)⟩
  simp [absolute, locationOf, habsolute, hcollapse]

/-- A relative path is no longer than with names before it. -/
theorem utf8ByteSize_relative (hrelative : p.isAbsolute = false) (hne : p.parts ≠ [])
    (front : List String) :
    p.text.utf8ByteSize ≤ (Path.text ⟨.root, front ++ p.parts⟩).utf8ByteSize := by
  obtain ⟨anchor, parts⟩ := p
  have hanchor : anchor = .relative := by
    cases anchor with
    | relative => rfl
    | _ => cases hrelative
  subst hanchor
  rw [Path.text_of_parts hne, Path.text_of_parts (by simp [hne])]
  simp only [Anchor.text, Text.join, String.utf8ByteSize_append]
  by_cases hfront : front = []
  · subst hfront
    simp
  · rw [String.intercalate_append_of_ne_nil hfront hne, String.utf8ByteSize_append]
    simp only [String.utf8ByteSize_empty]
    omega

/-- **A path without `..` leads where its absolute form leads.** -/
theorem Disk.locate_of_absolute (hw : d.tree.WellFormed)
    (hcwd : (d.tree.get? d.cwd).any Node.isDirectory = true) (hp : p.Proper)
    (hup : ".." ∉ p.parts) (h : d.locate true (d.absolute p).text = .ok base) :
    d.locate true p.text = .ok base := by
  cases habsolute : p.isAbsolute with
  | true =>
    rw [absolute_of_absolute hp hup habsolute] at h
    exact h
  | false =>
    have hplain := hw.plain_before hcwd
    rw [absolute_of_relative hplain hp hup habsolute] at h
    obtain ⟨-, hshort, hf⟩ := locate_ok h
    have hproper : Path.Proper ⟨.root, d.cwd ++ p.parts⟩ := by
      intro name hmem
      rcases List.mem_append.mp hmem with hbefore | hown
      · exact (hplain name hbefore).1
      · exact hp name hown
    have hstart : rawStart d.cwd (Path.text ⟨.root, d.cwd ++ p.parts⟩) = [] := by
      by_cases hall : d.cwd ++ p.parts = []
      · rw [rawStart_top hall]
        rfl
      · rw [rawStart_text hproper hall]
        rfl
    have hnames : follow d.tree true maxLinks [] (d.cwd ++ p.parts) = .ok base := by
      by_cases hall : d.cwd ++ p.parts = []
      · rw [hstart, rawNames_top hall, follow_dot rfl] at hf
        rw [hall]
        exact hf
      · rw [hstart, rawNames_text hproper hall] at hf
        exact hf
    have hon := follow_along hw hcwd hnames
    by_cases hne : p.parts = []
    · have hdot : p.text = "." := by
        obtain ⟨anchor, parts⟩ := p
        simp only at hne
        subst hne
        cases anchor with
        | relative => rfl
        | _ => cases habsolute
      rw [hdot]
      refine locate_of_follow (by decide) (by decide) ?_
      rw [hne] at hon
      exact (follow_dot hcwd).trans hon
    · refine locate_of_follow (text_ne_empty hp)
        (Nat.lt_of_le_of_lt (utf8ByteSize_relative habsolute hne d.cwd) hshort) ?_
      rw [rawNames_text hp hne, rawStart_text hp hne, habsolute]
      exact hon

/-- The path leads into the directory. -/
def Disk.LiesIn (d : Disk) (path : String) (directory : Path) : Prop :=
  ∃ base name, d.locate true directory.text = .ok base ∧
    d.locate false path = .ok (base ++ [name])

/-- A path that leads into one directory leads into another one if both are the same. -/
theorem Disk.LiesIn.iff_same {path : String} {q : Path} (h : d.LiesIn path p) :
    d.LiesIn path q ↔ d.locate true q.text = d.locate true p.text := by
  obtain ⟨base, name, hbase, hpath⟩ := h
  constructor
  · rintro ⟨other, last, hother, hsame⟩
    rw [hpath] at hsame
    obtain ⟨rfl, -⟩ := List.append_inj' (Except.ok.inj hsame) rfl
    rw [hother, hbase]
  · exact fun hsame => ⟨base, name, hsame.trans hbase, hpath⟩

end Files

open Files (Disk Node)

namespace Service

variable {s : Service} {unit : ClassUnit} {host made entered : Host} {tools : ModuleTools}
variable {resource : Disposable} {root base : Path} {actions : List Action}

/-! ## 2. The class file -/

/-- The directory that is meant for class files: the configured one, or else the system's. -/
def meantDirectory (s : Service) (host : Host) : Path :=
  s.configuration.tempDirectory.getD (Path.ofText host.systemTemp)

theorem meantDirectory_proper
    (h : ∀ path, s.configuration.tempDirectory = some path → path.Proper) :
    (s.meantDirectory host).Proper := by
  unfold meantDirectory
  cases ht : s.configuration.tempDirectory with
  | none => exact Path.ofText_proper _
  | some path => exact h path ht

/-- The entry point of a tool made of modules is about to be called: the class file was made, the
root of the tool is usable, and its modules were loaded. -/
structure Enters (s : Service) (unit : ClassUnit) (host : Host) (tools : ModuleTools)
    (resource : Disposable) (made : Host) (base : Path) (actions : List Action)
    (entered : Host) : Prop where
  file : s.makeFile unit host = (.ok resource, made)
  opened : tools.checkedRoot made.disk = .ok base
  loaded : (tools.enter base).exec (tools.openedHost base (toolStart made)) = (.ok actions, entered)

/-- What runs while a tool is loaded cannot touch a file. -/
theorem Enters.disk (h : s.Enters unit host tools resource made base actions entered) :
    entered.disk = made.disk := by
  have hkeeps : (tools.enter base).Keeps fun now => now.disk = made.disk :=
    ModuleTools.enter_keeps
      (Import.Indifferent.upheld ⟨fun _ _ _ _ h _ => h, fun _ _ h => h⟩) base
  have hentered := hkeeps (tools.openedHost base (toolStart made)) rfl
  rw [h.loaded] at hentered
  exact hentered

/-- **The file that the entry point is given**: it is new, it holds the bytes of the class, and it
stands in the directory to which the absolute form of the one that is meant leads. -/
theorem Enters.given (h : s.Enters unit host tools resource made base actions entered)
    (hdisk : host.disk.WellFormed)
    (htemp : ∀ path, s.configuration.tempDirectory = some path → path.Proper) :
    host.disk.lstat resource.path.text = .error .noEntry ∧
      entered.disk.read resource.path.text = .ok unit.data ∧
      host.disk.LiesIn resource.path.text (host.disk.absolute (s.meantDirectory host)) := by
  obtain ⟨n, loc, disk, namesTaken, hresource, hv, hs, hfilled, -, hmade⟩ :=
    Disposable.create_places (by exact hdisk) htemp h.file
  have hlstat : host.disk.lstat resource.path.text = .error .noEntry := by
    unfold Disk.lstat
    rw [Disk.find_vacant (by exact hv.locate) (by exact hv.vacant)]
    rfl
  have hread : disk.read resource.path.text = .ok unit.data := by
    have hlocate : disk.locate true resource.path.text = .ok loc :=
      Disk.locate_true (hs.locate hv) fun target ht => by rw [hfilled] at ht; cases ht
    unfold Disk.read Disk.stat
    rw [Disk.find_of_locate hlocate hfilled]
    rfl
  refine ⟨hlstat, ?_, ?_⟩
  · rw [h.disk, hmade]
    exact hread
  · have hpath : resource.path =
        (Disposable.directoryFor host s.configuration.tempDirectory).child
          (Disposable.fileName n) := by
      have hsame : Disposable.directoryFor (setLock true host) s.configuration.tempDirectory =
          Disposable.directoryFor host s.configuration.tempDirectory := rfl
      rw [hresource, hsame]
    have hl : host.disk.locate false resource.path.text = .ok loc := hv.locate
    rw [hpath] at hl ⊢
    obtain ⟨directory, hdirectory, rfl, -⟩ := Disk.locate_child
      (Disposable.directoryFor_proper hdisk htemp) (Disposable.fileName_plain n)
      (Disposable.fileName_ne_up n) hl (fun hfollow => by cases hfollow)
    exact ⟨directory, _, hdirectory, hl⟩

/-! ## 3. The text -/

/-- **What is captured is what the tool's code wrote**, however the run ends. -/
theorem captured_of_modules {entry : EntryPoint} {entryText : String}
    (hinvoker : s.invoker = Invocation.invoke)
    (hengine : s.backend.engine = .module entry entryText)
    (hbase : ({ root, entry, entryText } : ModuleTools).checkedRoot made.disk = .ok base) :
    (s.finishedOf root resource made).captured =
      String.join (({ root, entry, entryText } : ModuleTools).runTexts base
        (s.backend.argumentsFor resource.path)
        (({ root, entry, entryText } : ModuleTools).openedHost base (toolStart made))) := by
  have hwrites := Invocation.invoke_writes root resource.path (toolStart made) hengine hbase
  have hrecords := hwrites made.console.begin.1 "" made.console.records_begin
  rw [String.empty_append, ← hinvoker] at hrecords
  exact hrecords.textOf_finish

/-- A run that ends normally called the entry point. -/
theorem enters_of_invoke {entry : EntryPoint} {entryText : String}
    (hengine : s.backend.engine = .module entry entryText)
    (hmake : s.makeFile unit host = (.ok resource, made))
    (h : ((Invocation.invoke s.backend root resource.path).exec (toolStart made)).1 = .ok ()) :
    ∃ base actions entered,
      s.Enters unit host { root, entry, entryText } resource made base actions entered := by
  rw [Invocation.invoke_eq, Backend.withEntry_module hengine] at h
  cases hbase : ({ root, entry, entryText } : ModuleTools).checkedRoot (toolStart made).disk with
  | error fault =>
    rw [ModuleTools.withEntry_exec_error hbase] at h
    cases h
  | ok base =>
    rw [ModuleTools.withEntry_exec hbase, Run.exec_followedBy_result] at h
    cases henter : (({ root, entry, entryText } : ModuleTools).enter base).exec
        (({ root, entry, entryText } : ModuleTools).openedHost base (toolStart made)) with
    | mk result entered =>
      cases result with
      | ok actions => exact ⟨base, actions, entered, hmake, hbase, henter⟩
      | error fault =>
        rw [ModuleTools.within_exec_error henter] at h
        simp only at h
        split at h <;> cases h

/-- What a run writes that called the entry point. -/
theorem Enters.runTexts (h : s.Enters unit host tools resource made base actions entered)
    (arguments : List String) :
    tools.runTexts base arguments (tools.openedHost base (toolStart made)) =
      Import.loadModuleTexts tools.entry.module (tools.openedHost base (toolStart made)) ++
        Import.routineTexts tools.entry.module arguments entered actions := by
  have hloaded := h.loaded
  have hfound : tools.isFound (tools.openedHost base (toolStart made)).disk base = true := by
    rw [ModuleTools.enter_exec] at hloaded
    split at hloaded
    · assumption
    · cases hloaded
  simp only [ModuleTools.runTexts, ModuleTools.enterTexts, hfound, if_true, Run.following, h.loaded]

/-- **What a tool made of modules is given, and what it gives.**  When the entry point is called, its
last argument is the path of a file that was not there before the disassembly and holds the bytes of
the class.  The file lies in the directory that is meant for class files exactly if that directory's
path leads where its absolute form leads, which it does unless it has a `..`.  When the disassembly
succeeds, its text is all that the tool's code wrote, in order: what was written while the tool was
loaded, and then what the call of the entry point wrote. -/
theorem disassemble_with_modules (s : Service) (unit : ClassUnit) (root : Path) (host : Host)
    {entry : EntryPoint} {entryText : String} (hroot : s.configuration.toolPath = some root)
    (hinvoker : s.invoker = Invocation.invoke)
    (hengine : s.backend.engine = .module entry entryText) (hdisk : host.disk.WellFormed)
    (hcwd : (host.disk.tree.get? host.disk.cwd).any Node.isDirectory = true)
    (htemp : ∀ path, s.configuration.tempDirectory = some path → path.Proper) :
    let tools : ModuleTools := { root, entry, entryText }
    let meant := s.meantDirectory host
    (∀ resource made base actions entered,
      s.Enters unit host tools resource made base actions entered →
        ∃ path, (s.backend.argumentsFor resource.path).getLast? = some path ∧
          host.disk.lstat path = .error .noEntry ∧ entered.disk.read path = .ok unit.data ∧
          (host.disk.LiesIn path meant ↔
            host.disk.locate true meant.text =
              host.disk.locate true (host.disk.absolute meant).text) ∧
          (".." ∉ meant.parts → host.disk.LiesIn path meant)) ∧
    ∀ outcome, ((s.disassemble unit).exec host).1 = .ok outcome → outcome.kind = .success →
      ∃ resource made base actions entered,
        s.Enters unit host tools resource made base actions entered ∧
        outcome.text = String.join
          (Import.loadModuleTexts entry.module (tools.openedHost base (toolStart made)) ++
            Import.routineTexts entry.module (s.backend.argumentsFor resource.path) entered
              actions) := by
  intro tools meant
  refine ⟨fun resource made base actions entered h => ?_, fun outcome h hkind => ?_⟩
  · obtain ⟨hnew, hread, hlies⟩ := h.given hdisk htemp
    refine ⟨resource.path.text, ?_, hnew, hread, hlies.iff_same, fun hup => ?_⟩
    · simp [Backend.argumentsFor]
    · obtain ⟨directory, -, hdirectory, -⟩ := id hlies
      have hsame := Disk.locate_of_absolute hdisk.tree hcwd (meantDirectory_proper htemp) hup
        hdirectory
      exact hlies.iff_same.mpr (hsame.trans hdirectory.symm)
  · rw [disassemble_result hroot] at h
    obtain ⟨hending, houtcome⟩ := success_of_verdict h hkind
    cases hmake : s.makeFile unit host with
    | mk result made =>
      rw [hmake] at hending houtcome
      cases result with
      | error fault => cases hending
      | ok resource =>
        have hinvoke : ((s.invoker s.backend root resource.path).exec (toolStart made)).1 = .ok () :=
          hending
        rw [hinvoker] at hinvoke
        obtain ⟨base, actions, entered, henters⟩ := enters_of_invoke hengine hmake hinvoke
        refine ⟨resource, made, base, actions, entered, henters, ?_⟩
        rw [houtcome]
        exact (captured_of_modules hinvoker hengine henters.opened).trans
          (congrArg String.join (henters.runTexts _))

/-- The member of a module can be called. -/
def canBeCalled : Member → Bool
  | .routine _ => true
  | .value _ => false

/-- A directory for class files whose path has a `..` after a link: `/a/link` leads to `/b/inner`, so
the path leads to `/b/tmp`, but the class file is made in `/a/tmp`. -/
theorem class_file_strays_behind_link :
    let s : Service := {
      backend := { engine := .module ⟨"javap", "main"⟩ "javap:main", label := "Tool",
                   arguments := [] }
      configuration := {
        toolPath := some ⟨.root, []⟩, tempDirectory := some ⟨.root, ["a", "link", "..", "tmp"]⟩ } }
    let tools : ModuleTools := ⟨⟨.root, []⟩, ⟨"javap", "main"⟩, "javap:main"⟩
    let script : Script := { members := [("main", .routine [.load "helper"])] }
    let host : Host := {
      disk := { tree := ⟨[(["javap.py"], .file (.script script) 0o644), (["a"], .directory 0o755),
        (["a", "tmp"], .directory 0o755), (["a", "link"], .link "../b/inner"),
        (["b"], .directory 0o755), (["b", "inner"], .directory 0o755),
        (["b", "tmp"], .directory 0o755)]⟩ } }
    ∃ resource made base actions entered path,
      s.Enters ⟨[0xca, 0xfe], "Foo"⟩ host tools resource made base actions entered ∧
      (s.backend.argumentsFor resource.path).getLast? = some path ∧
      entered.disk.read path = .ok [0xca, 0xfe] ∧
      ¬ host.disk.LiesIn path ⟨.root, ["a", "link", "..", "tmp"]⟩ := by
  intro s tools script host
  let unit : ClassUnit := ⟨[0xca, 0xfe], "Foo"⟩
  have hrun : (let made := (s.makeFile unit host).2
      let load := (Import.loadModule "javap").exec (tools.openedHost ⟨.root, []⟩ (toolStart made))
      (s.makeFile unit host).1.toBool && load.1.toBool && made.disk.cwd.isEmpty && made.disk.denied.isEmpty &&
      tools.isFound made.disk ⟨.root, []⟩ &&
      (load.2.modules.get? "javap").any (fun m => m.origin == some "/javap.py" &&
        (m.member? "main").any canBeCalled) &&
      (Files.linkAt? load.2.disk ⟨.root, ["javap.py"]⟩).isNone &&
      (load.2.disk.stat "/javap.py").toBool) = true := by decide +kernel
  have hdisk : host.disk.WellFormed :=
    ⟨Files.Tree.WellFormed.of_nodes (by decide), fun name hm => by cases hm⟩
  have htemp : ∀ path, s.configuration.tempDirectory = some path → path.Proper := by
    rintro path ⟨⟩
    decide
  rcases hmake : s.makeFile unit host with ⟨_ | resource, made⟩
  · simp [hmake, Except.toBool] at hrun
  rw [hmake] at hrun
  rcases hload : (Import.loadModule "javap").exec
    (tools.openedHost ⟨.root, []⟩ (toolStart made)) with ⟨_ | _, loaded⟩
  · simp [hload, Except.toBool] at hrun
  simp only [hload, Bool.and_eq_true, List.isEmpty_iff, Option.isNone_iff_eq_none] at hrun
  obtain ⟨⟨⟨⟨⟨⟨-, hcwd⟩, hdenied⟩, hfound⟩, hmodule⟩, hlink⟩, hthere⟩ := hrun
  obtain ⟨m, hget, hmember⟩ := (Option.any_eq_true _ _).mp hmodule
  simp only [Bool.and_eq_true, beq_iff_eq] at hmember
  obtain ⟨member, hlookup, hkind⟩ := (Option.any_eq_true _ _).mp hmember.2
  cases member with
  | value v => cases hkind
  | routine actions =>
    have henters : s.Enters unit host tools resource made ⟨.root, []⟩ actions loaded :=
      ⟨hmake, ModuleTools.checkedRoot_top _ _ hcwd hdenied,
        ModuleTools.enter_of_module hfound hload hget hmember.1
          (Files.Disk.resolve_name (by decide) (by decide) hlink hthere) rfl
          hlookup⟩
    obtain ⟨hcalled, -⟩ := disassemble_with_modules s unit ⟨.root, []⟩ host
      rfl rfl rfl hdisk rfl htemp
    obtain ⟨path, hlast, -, hread, hlies, -⟩ := hcalled _ _ _ _ _ henters
    refine ⟨resource, made, _, actions, loaded, path, henters, hlast, hread, fun hin => ?_⟩
    have hsame := hlies.mp hin
    have hmeant : host.disk.locate true (s.meantDirectory host).text = .ok ["b", "tmp"] :=
      Run.ok_of_toOption (by decide +kernel)
    have habsolute : host.disk.locate true (host.disk.absolute (s.meantDirectory host)).text =
      .ok ["a", "tmp"] := Run.ok_of_toOption (by decide +kernel)
    rw [hmeant, habsolute] at hsame
    exact absurd (Except.ok.inj hsame) (by decide)

end Service

end Dissect
