/-
# Tables of modules that grow

While a tool is open its code adds modules to the table, counts with them, and takes out those whose
loading failed; it never touches a module that was there when the tool was opened.  `Grown base t`
says so of a table `t` that started as `base`: in the order of the table the modules of `base` are
still there, unchanged, and every other module is younger than `base`.

The operations of the table keep this as long as they concern names that `base` leaves free.  What
closing the tool makes of a grown table is read off here as well: which modules go (`sweep`) and
what the names of the host are bound to afterwards (`lookup_restored`).
-/
import Dissect.Tool.ModuleTools

namespace Dissect

/-! ## 1. Tables in general -/

namespace Assoc

variable {κ β : Type} [BEq κ] [LawfulBEq κ]

/-- Leaving out keys hides them and nothing else. -/
theorem lookup_filter (p : κ → Bool) (key : κ) : ∀ table : List (κ × β),
    (table.filter fun entry => p entry.1).lookup key = if p key then table.lookup key else none
  | [] => by simp
  | (k, v) :: rest => by
    have ih := lookup_filter p key rest
    by_cases hk : key = k
    · subst hk
      cases hp : p key <;> simp [hp, ih]
    · have hb : (key == k) = false := beq_eq_false_iff_ne.mpr hk
      cases hp : p k <;> simp [hp, List.lookup_cons, hb, ih]

theorem mem_of_lookup {key : κ} {value : β} {table : List (κ × β)}
    (h : table.lookup key = some value) : (key, value) ∈ table := by
  obtain ⟨before, after, rfl, -⟩ := List.lookup_eq_some_iff.mp h
  simp

/-- Setting keys that a property describes does not show where it does not hold. -/
theorem filter_set {p : κ → Bool} {key : κ} (hp : p key = false) (value : β) :
    ∀ table : List (κ × β),
      (set key value table).filter (fun entry => p entry.1) = table.filter fun entry => p entry.1
  | [] => by simp [set, hp]
  | (k, v) :: rest => by
    by_cases hk : (key == k) = true
    · have hp' : p k = false := by rw [← eq_of_beq hk]; exact hp
      simp [set, hk, hp']
    · simp only [set, hk, List.filter_cons, filter_set hp value rest, Bool.false_eq_true, if_false]

/-- The keys of a table are distinct. -/
def Distinct (table : List (κ × β)) : Prop := (table.map Prod.fst).Nodup

/-- Setting the entries of a table one after the other gives them all. -/
theorem lookup_foldl_set (key : κ) : ∀ (entries table : List (κ × β)), Distinct entries →
    (entries.foldl (fun t (k, v) => set k v t) table).lookup key =
      (entries.lookup key).or (table.lookup key)
  | [], table, _ => by simp
  | (k, v) :: rest, table, h => by
    simp only [Distinct, List.map_cons, List.nodup_cons] at h
    rw [List.foldl_cons, lookup_foldl_set key rest _ h.2]
    by_cases hk : key = k
    · subst hk
      have hnone : rest.lookup key = none := by
        rw [List.lookup_eq_none_iff]
        intro entry hmem
        have : key ≠ entry.1 := fun he => h.1 (he ▸ List.mem_map_of_mem hmem)
        simpa using this
      simp [hnone, lookup_set_self]
    · have hb : (key == k) = false := beq_eq_false_iff_ne.mpr hk
      simp [List.lookup_cons, hb, lookup_set_of_ne hk]

end Assoc

/-! ## 2. What the operations do to a name -/

namespace ModuleTable

variable {t base : ModuleTable} {name other : String} {m : Module}

theorem contains_iff : t.contains name = true ↔ ∃ m, t.get? name = some m :=
  Option.isSome_iff_exists

theorem contains_of_mem {entry : String × Module} (h : entry ∈ t.loaded) :
    t.contains entry.1 = true := by
  unfold contains get?
  rw [List.lookup_isSome_iff]
  exact ⟨entry, h, by simp⟩

/-- What was added is there, under a number of its own. -/
theorem get?_add (t : ModuleTable) (name : String) (m : Module) :
    (t.add name m).get? name = some { m with serial := t.nextSerial } := by
  have hgone : (without name t.loaded).lookup name = none := by
    rw [without, Assoc.lookup_filter (· != name)]
    simp
  simp only [add, insert, get?, List.lookup_append, hgone, Option.none_or, List.lookup_cons_self]

/-- A free name can be taken out of the list, renewed or added without a trace among the others. -/
theorem filter_without {p : String → Bool} (hp : p name = false)
    (entries : List (String × Module)) :
    (without name entries).filter (fun entry => p entry.1) =
      entries.filter fun entry => p entry.1 := by
  unfold without
  rw [List.filter_filter]
  refine List.filter_congr fun entry _ => ?_
  by_cases he : entry.1 = name
  · simp [he, hp]
  · simp [he]

/-! ## 3. Growth -/

/-- The table has grown from the base: what the base held is there, in order and unchanged, and all
else is younger. -/
structure Grown (base t : ModuleTable) : Prop where
  old : t.loaded.filter (fun entry => base.contains entry.1) = base.loaded
  young : ∀ entry ∈ t.loaded, base.contains entry.1 = false →
    base.nextSerial ≤ entry.2.serial
  serials : base.nextSerial ≤ t.nextSerial
  searchPath : t.searchPath = base.searchPath
  resident : t.resident = base.resident

namespace Grown

theorem refl (base : ModuleTable) : Grown base base where
  old := List.filter_eq_self.mpr fun _ h => contains_of_mem h
  young := fun _ h hfree => by rw [contains_of_mem h] at hfree; cases hfree
  serials := Nat.le_refl _
  searchPath := rfl
  resident := rfl

/-- A module of the base is still bound to its name. -/
theorem get?_of_base (h : Grown base t) (hm : base.get? name = some m) : t.get? name = some m := by
  have hc : base.contains name = true := contains_iff.mpr ⟨m, hm⟩
  have hl := Assoc.lookup_filter (fun n => base.contains n) name t.loaded
  rw [h.old, if_pos hc] at hl
  exact hl.symm.trans hm

/-- A name that is free now was free from the start. -/
theorem free_of_vacant (h : Grown base t) (hv : t.contains name = false) :
    base.contains name = false := by
  cases hb : base.contains name with
  | false => rfl
  | true =>
    obtain ⟨m, hm⟩ := contains_iff.mp hb
    rw [contains_iff.mpr ⟨m, h.get?_of_base hm⟩] at hv
    cases hv

theorem add (h : Grown base t) (hf : base.contains name = false) (m : Module) :
    Grown base (t.add name m) where
  old := by
    have hnew : [(name, { m with serial := t.nextSerial })].filter
        (fun entry => base.contains entry.1) = [] := by simp [hf]
    show (without name t.loaded ++ [(name, _)]).filter _ = _
    rw [List.filter_append, hnew, List.append_nil, filter_without hf, h.old]
  young := by
    intro entry hmem hfree
    rcases List.mem_append.mp hmem with hold | hnew
    · exact h.young entry ((List.mem_filter.mp hold).1) hfree
    · rw [List.mem_singleton.mp hnew]
      exact h.serials
  serials := Nat.le_succ_of_le h.serials
  searchPath := h.searchPath
  resident := h.resident

theorem erase (h : Grown base t) (hf : base.contains name = false) : Grown base (t.erase name) where
  old := by
    show (without name t.loaded).filter _ = _
    rw [filter_without hf, h.old]
  young := fun entry hmem => h.young entry ((List.mem_filter.mp hmem).1)
  serials := h.serials
  searchPath := h.searchPath
  resident := h.resident

/-- Counting changes the module that counts and no other. -/
theorem tally (h : Grown base t) (hf : base.contains name = false) :
    Grown base (t.tally name).1 := by
  unfold ModuleTable.tally
  cases hm : t.get? name with
  | none => exact h
  | some m =>
    refine ⟨?_, ?_, h.serials, h.searchPath, h.resident⟩
    · rw [List.filter_map]
      have hsame : ∀ entry ∈ t.loaded.filter fun entry => base.contains entry.1,
          (if entry.1 = name then (entry.1, { m with count := m.count + 1 })
            else (entry.1, entry.2)) = entry := by
        intro entry hmem
        have hc : base.contains entry.1 = true := by simpa using (List.mem_filter.mp hmem).2
        have hne : entry.1 ≠ name := fun he => by rw [he, hf] at hc; cases hc
        simp [hne]
      have hkeys : t.loaded.filter ((fun entry => base.contains entry.1) ∘ fun entry =>
          if entry.1 = name then (entry.1, { m with count := m.count + 1 })
            else (entry.1, entry.2)) = t.loaded.filter fun entry => base.contains entry.1 := by
        refine List.filter_congr fun entry _ => ?_
        by_cases he : entry.1 = name <;> simp [he]
      rw [hkeys, List.map_congr_left hsame, List.map_id', h.old]
    · intro entry hmem hfree
      obtain ⟨old, hold, rfl⟩ := List.mem_map.mp hmem
      by_cases he : old.1 = name
      · simp only [he, if_true]
        exact h.young (name, m) (Assoc.mem_of_lookup hm) hf
      · simp only [he, if_false] at hfree ⊢
        exact h.young old hold hfree

end Grown

end ModuleTable

/-! ## 4. What closing the tool leaves -/

namespace ModuleTools

variable {tools : ModuleTools} {disk : Files.Disk} {root : Path} {before : ModuleTable}

/-- The host's modules that are visible while the tool is open: all but the tool's own names. -/
theorem get?_opened (root : Path) (table : ModuleTable) (name : String) :
    (tools.opened root table).get? name = if tools.owns name then none else table.get? name := by
  have h := Assoc.lookup_filter (fun n => !tools.owns n) name table.loaded
  cases hn : tools.owns name <;> simp only [hn] at h <;> exact h

theorem contains_opened (root : Path) (table : ModuleTable) (name : String) :
    (tools.opened root table).contains name = (!tools.owns name && table.contains name) := by
  unfold ModuleTable.contains
  rw [get?_opened]
  cases tools.owns name <;> rfl

/-- Every module can be told to go or to stay. -/
def Settles (tools : ModuleTools) (disk : Files.Disk) (root : Path) (before : ModuleTable)
    (loaded : List (String × Module)) : Prop :=
  ∀ entry ∈ loaded, ∃ goes, tools.unloads disk root before entry.1 entry.2 = .ok goes

/-- The module is told to stay. -/
def stays (tools : ModuleTools) (disk : Files.Disk) (root : Path) (before : ModuleTable)
    (entry : String × Module) : Bool :=
  match tools.unloads disk root before entry.1 entry.2 with
  | .ok goes => !goes
  | .error _ => true

/-- **Sweeping runs to its end exactly when every module can be told**, and then it leaves those
that are told to stay. -/
theorem sweep_of_settles : ∀ {loaded : List (String × Module)},
    tools.Settles disk root before loaded →
      tools.sweep disk root before loaded =
        (loaded.filter (tools.stays disk root before), none)
  | [], _ => rfl
  | (name, m) :: rest, h => by
    have hrest : tools.Settles disk root before rest := fun entry hmem =>
      h entry (List.mem_cons_of_mem _ hmem)
    have ih := sweep_of_settles hrest
    obtain ⟨goes, hgoes⟩ := h (name, m) List.mem_cons_self
    have hstays : tools.stays disk root before (name, m) = !goes := by
      simp only [stays, hgoes]
    cases goes with
    | true => simp [sweep, hgoes, ih, hstays]
    | false => simp [sweep, hgoes, ih, hstays]

theorem sweep_stops : ∀ {loaded : List (String × Module)},
    ¬ tools.Settles disk root before loaded →
      (tools.sweep disk root before loaded).2.isSome = true
  | [], h => absurd (fun _ hmem => by cases hmem) h
  | (name, m) :: rest, h => by
    cases hu : tools.unloads disk root before name m with
    | error fault => simp [sweep, hu]
    | ok goes =>
      have hrest : ¬ tools.Settles disk root before rest := by
        intro hs
        refine h fun entry hmem => ?_
        rcases List.mem_cons.mp hmem with rfl | hmem
        · exact ⟨goes, hu⟩
        · exact hs entry hmem
      have ih := sweep_stops hrest
      cases goes <;> simp [sweep, hu, ih]

/-- Sweeping keeps no module that was not there. -/
theorem mem_of_mem_sweep {entry : String × Module} : ∀ {loaded : List (String × Module)},
    entry ∈ (tools.sweep disk root before loaded).1 → entry ∈ loaded
  | [], h => by simp [sweep] at h
  | (name, m) :: rest, h => by
    cases hu : tools.unloads disk root before name m with
    | error fault =>
      simp only [sweep, hu] at h
      exact h
    | ok goes =>
      cases goes with
      | true =>
        simp only [sweep, hu] at h
        exact List.mem_cons_of_mem _ (mem_of_mem_sweep h)
      | false =>
        simp only [sweep, hu] at h
        rcases List.mem_cons.mp h with rfl | h
        · exact List.mem_cons_self
        · exact List.mem_cons_of_mem _ (mem_of_mem_sweep h)

/-- A module that cannot be told to go is still there after sweeping. -/
theorem mem_sweep_of_stays {entry : String × Module} : ∀ {loaded : List (String × Module)},
    entry ∈ loaded → tools.stays disk root before entry = true →
      entry ∈ (tools.sweep disk root before loaded).1
  | [], h, _ => by cases h
  | (name, m) :: rest, h, hs => by
    cases hu : tools.unloads disk root before name m with
    | error fault =>
      simp only [sweep, hu]
      exact h
    | ok goes =>
      rcases List.mem_cons.mp h with rfl | h
      · simp only [stays, hu, Bool.not_eq_true'] at hs
        simp [sweep, hu, hs]
      · have ih := mem_sweep_of_stays h hs
        cases goes <;> simp [sweep, hu, ih]

/-- The table once the modules put aside are back. -/
theorem lookup_restored (hd : Assoc.Distinct before.loaded) (kept : List (String × Module))
    (name : String) :
    (tools.restored before kept).lookup name =
      (if tools.owns name then before.get? name else none).or (kept.lookup name) := by
  unfold restored
  have hdistinct : ∀ p, Assoc.Distinct (before.loaded.filter p) := fun _ =>
    List.Nodup.sublist (List.Sublist.map _ List.filter_sublist) hd
  rw [Assoc.lookup_foldl_set name _ _ (hdistinct _)]
  exact congrArg (·.or (kept.lookup name)) (Assoc.lookup_filter tools.owns name before.loaded)

/-- The modules that come back leave no trace among the names that are not the tool's own. -/
theorem filter_restored (kept : List (String × Module)) :
    (tools.restored before kept).filter (fun entry => !tools.owns entry.1) =
      kept.filter fun entry => !tools.owns entry.1 := by
  unfold restored
  generalize hs : before.loaded.filter _ = aside
  have howned : ∀ entry ∈ aside, tools.owns entry.1 = true := by
    intro entry hmem
    rw [← hs] at hmem
    exact (List.mem_filter.mp hmem).2
  clear hs
  induction aside generalizing kept with
  | nil => rfl
  | cons entry rest ih =>
    rw [List.foldl_cons, ih _ fun e hmem => howned e (List.mem_cons_of_mem _ hmem)]
    have h := howned entry List.mem_cons_self
    exact Assoc.filter_set (p := fun n => !tools.owns n) (by simp [h]) entry.2 kept

end ModuleTools

end Dissect
