import DiagramScript.Journal
import DiagramScript.Proofs.Outcome
import Mathlib.Data.List.Induction
import Mathlib.Data.List.Nodup

/-
  Setups of a journal next to the handlers of an application.

  The handlers that a setup takes away are those that the setup before it has noted. What is
  proved:
    1. A setup that is refused for its level leaves the journal as it was, one that is refused
       for its format or its file takes the handlers of the last setup away, and any other one
       replaces them (`setup_cases`).
    2. After any history the handlers are the silent one, those of the application, and what was
       noted, each of them once; what was noted are the handlers of the setup that stands
       (`run_keeps`).
    3. Where no setup is refused but for its level, that is the last one that was not refused
       (`run_carries`).
-/

namespace DiagramScript

/-- Whether a file can be written to a path does not depend on what was written. -/
theorem Folder.placeFor_eq_ok {f : Folder} (g : Folder) {lead : Nat} {path : List Char}
    {p : Place} (h : f.placeFor lead path = .ok p) : g.placeFor lead path = .ok p := by
  unfold placeFor at h ⊢
  cases hcheck : checkPath lead path with
  | error _ =>
    rw [hcheck] at h
    contradiction
  | ok _ =>
    rw [hcheck] at h
    cases hplace : f.locate? path with
    | error _ =>
      rw [hplace] at h
      contradiction
    | ok q =>
      rw [hplace] at h
      rw [locate?_eq_ok g hplace]
      exact h

namespace Journal
variable {j : Journal}

theorem fileOf_eq_ok {f g : Folder} (hlength : g.directoryLength = f.directoryLength) {v : Value}
    {file : Option Place} (h : fileOf f v = .ok file) : fileOf g v = .ok file := by
  unfold fileOf at h ⊢
  split
  · rename_i hblank
    rwa [if_pos hblank] at h
  · rename_i hblank
    rw [if_neg hblank] at h
    cases v with
    | text s =>
      simp only [Folder.resolvedPlace, hlength] at h ⊢
      generalize (if FileName.isAbsolute _ then 0 else f.directoryLength) = lead at h ⊢
      cases hplace : f.placeFor lead (FileName.resolved s).toList with
      | error _ =>
        rw [hplace] at h
        contradiction
      | ok p =>
        rw [hplace] at h
        rw [Folder.placeFor_eq_ok g hplace]
        exact h
    | _ => contradiction

/-! ## Records -/

theorem append_eq (f : Folder) (p : Place) (more : String) :
    ∃ files, f.append p more = { f with files } := by
  unfold Folder.append
  split <;> exact ⟨_, rfl⟩

theorem writeLine_eq (j : Journal) (sink : Sink) (line : String) :
    ∃ streams files,
      j.writeLine sink line = { j with streams, folder := { j.folder with files } } := by
  unfold writeLine
  split
  · exact ⟨_, _, rfl⟩
  · split
    · exact ⟨_, _, rfl⟩
    · obtain ⟨files, heq⟩ := append_eq j.folder _ (line ++ "\n")
      exact ⟨_, files, by rw [heq]⟩

theorem handle_eq (r : LogRecord) (j : Journal) (h : Handler) :
    ∃ streams files, handle r j h = { j with streams, folder := { j.folder with files } } := by
  unfold handle
  split
  · split
    · exact writeLine_eq j _ _
    · exact ⟨_, _, rfl⟩
  · exact ⟨_, _, rfl⟩

theorem foldl_handle_eq (r : LogRecord) (j : Journal) (hs : List Handler) :
    ∃ streams files,
      hs.foldl (handle r) j = { j with streams, folder := { j.folder with files } } := by
  induction hs generalizing j with
  | nil => exact ⟨_, _, rfl⟩
  | cons h hs ih =>
    obtain ⟨streams, files, heq⟩ := handle_eq r j h
    rw [List.foldl_cons, heq]
    exact ih _

/-- A record changes nothing but streams and files. -/
theorem record_eq (j : Journal) (r : LogRecord) :
    ∃ streams files, j.record r = { j with streams, folder := { j.folder with files } } := by
  unfold record
  split
  · exact ⟨_, _, rfl⟩
  · exact foldl_handle_eq r j j.handlers

theorem event_eq (j : Journal) (e : Event) :
    ∃ streams files, j.event e = { j with streams, folder := { j.folder with files } } := by
  have hstore : ∃ files, j.store e = { j with folder := { j.folder with files } } := by
    unfold store
    split <;> exact ⟨_, rfl⟩
  obtain ⟨files, hstore⟩ := hstore
  rw [event, hstore]
  exact record_eq _ _

/-! ## Setups -/

theorem foldl_removeHandler (j : Journal) (hs : List Handler) :
    hs.foldl removeHandler j = { j with handlers := j.handlers.diff hs } := by
  induction hs generalizing j with
  | nil => rfl
  | cons h hs ih => rw [List.foldl_cons, ih, List.diff_cons]; rfl

theorem uninstall_eq (j : Journal) :
    j.uninstall = { j with handlers := j.handlers.diff j.installed, installed := [] } := by
  rw [uninstall, foldl_removeHandler]

theorem addHandler_of_not_mem {h : Handler} (hnew : h ∉ j.handlers) :
    j.addHandler h = { j with handlers := j.handlers ++ [h] } := if_neg hnew

theorem foldl_installHandler {hs : List Handler} (hnodup : (j.handlers ++ hs).Nodup) :
    hs.foldl installHandler j =
      { j with handlers := j.handlers ++ hs, installed := j.installed ++ hs } := by
  induction hs generalizing j with
  | nil => simp
  | cons h hs ih =>
    rw [List.append_cons] at hnodup
    have hnew : h ∉ j.handlers := by
      have hdisjoint := (List.nodup_append.mp (List.nodup_append.mp hnodup).1).2.2
      exact fun hmem => hdisjoint h hmem h (List.mem_singleton.mpr rfl) rfl
    have hinstall : j.installHandler h =
        { j with handlers := j.handlers ++ [h], installed := j.installed ++ [h] } := by
      rw [installHandler, addHandler_of_not_mem hnew]
    rw [List.foldl_cons, hinstall, ih hnodup]
    simp

/-- What a setup that is not refused asks for. -/
structure Setting where
  level : Level
  stream : String
  file : Option Place
  format : String

/-- What a setup asks for, if it is not refused. Where a file can be written depends on the working
directory, but not on what was written since the start. -/
def Setting.of? (home : Folder) (level : Value) (stream : String) (file format : Value) :
    Option Setting :=
  match levelOf level, fileOf home file, formatOf format with
  | .ok level, .ok file, .ok format => some ⟨level, stream, file, format⟩
  | _, _, _ => none

/-- The handlers of a setup, the first of which has a number. -/
def Setting.handlers (s : Setting) (number : Nat) : List Handler :=
  setupHandlers number s.stream s.file s.format

theorem Setting.handlers_nodup (s : Setting) (number : Nat) : (s.handlers number).Nodup := by
  unfold handlers setupHandlers
  cases s.file <;> simp

theorem Setting.mem_handlers {s : Setting} {number : Nat} {h : Handler}
    (hmem : h ∈ s.handlers number) : ∃ k sink format, h = .installed k sink format ∧
      number ≤ k ∧ k < number + (s.handlers number).length := by
  unfold handlers setupHandlers at hmem ⊢
  rcases List.mem_cons.mp hmem with rfl | hmem
  · exact ⟨_, _, _, rfl, Nat.le_refl _, by simp⟩
  · obtain ⟨place, hplace, rfl⟩ := List.mem_map.mp hmem
    have hlength : s.file.toList.length = 1 := by
      rw [Option.mem_toList.mp hplace]
      rfl
    refine ⟨_, _, _, rfl, Nat.le_succ _, ?_⟩
    rw [List.length_cons, List.length_map, hlength]
    omega

theorem Setting.install_eq {s : Setting} (hnodup : (j.handlers ++ s.handlers j.made).Nodup) :
    ∃ files, j.install s.level s.stream s.file s.format =
      { j with
        level := s.level
        folder := { j.folder with files }
        handlers := j.handlers ++ s.handlers j.made
        installed := j.installed ++ s.handlers j.made
        made := j.made + (s.handlers j.made).length } := by
  obtain ⟨level, stream, file, format⟩ := s
  unfold install
  simp only
  rw [foldl_installHandler (by exact hnodup)]
  -- The log file of the setup is there from now on.
  cases file with
  | none => exact ⟨_, rfl⟩
  | some place =>
    obtain ⟨files, heq⟩ := append_eq j.folder place ""
    refine ⟨files, ?_⟩
    dsimp only
    rw [heq]
    rfl

/-- What a setup does: nothing, or it takes the handlers of the last one away, and it replaces these
where it is not refused. -/
theorem setup_cases {home : Folder} (hhome : j.folder.directoryLength = home.directoryLength)
    (level : Value) (stream : String) (file format : Value) :
    (∃ e, levelOf level = .error e ∧ Setting.of? home level stream file format = none ∧
      j.setup level stream file format = (j, .error e)) ∨
    (∃ l e, levelOf level = .ok l ∧ Setting.of? home level stream file format = none ∧
      j.setup level stream file format = (j.uninstall, .error e)) ∨
    ∃ l new, levelOf level = .ok l ∧ Setting.of? home level stream file format = some new ∧
      j.setup level stream file format =
        (j.uninstall.install new.level new.stream new.file new.format, .ok ()) := by
  have hfolder : j.uninstall.folder.directoryLength = home.directoryLength := by
    rw [uninstall_eq]
    exact hhome
  unfold setup Setting.of?
  cases hlevel : levelOf level with
  | error e => exact .inl ⟨e, rfl, rfl, rfl⟩
  | ok l =>
    refine .inr ?_
    cases hformat : formatOf format with
    | error e =>
      refine .inl ⟨l, e, rfl, ?_, rfl⟩
      cases fileOf home file <;> rfl
    | ok f =>
      cases hfile : fileOf j.uninstall.folder file with
      | error e =>
        refine .inl ⟨l, e, rfl, ?_, by simp only [hfile]⟩
        -- The files that are there decide which error a path meets, never whether it meets one.
        cases hplace : fileOf home file with
        | error _ => rfl
        | ok p =>
          rw [fileOf_eq_ok hfolder hplace] at hfile
          contradiction
      | ok p =>
        refine .inr ⟨l, ⟨l, stream, p, f⟩, rfl, ?_, by simp only [hfile]⟩
        rw [fileOf_eq_ok hfolder.symm hfile]

/-! ## Histories -/

/-- What happens to a journal: it is set up, the application adds a handler, or something is
recorded. -/
inductive Act where
  | setup (level : Value) (stream : String) (file format : Value)
  | attach (name : String)
  | record (r : LogRecord)
  | event (e : Event)

def step (j : Journal) : Act → Journal
  | .setup level stream file format => (j.setup level stream file format).1
  | .attach name => j.attach name
  | .record r => j.record r
  | .event e => j.event e

/-- The journal after a history that starts with the files of a folder. -/
def run (home : Folder) (acts : List Act) : Journal := acts.foldl step { folder := home }

namespace Act
variable (home : Folder)

/-- What an act asks for if it is a setup that is not refused. -/
def setting? : Act → Option Setting
  | setup level stream file format => Setting.of? home level stream file format
  | _ => none

/-- A setup whose level is unknown, or whose file can be opened and whose format is one. Any other
act is usable. -/
def IsUsable : Act → Prop
  | setup level _ file format =>
    (∃ e, levelOf level = .error e) ∨
      (∃ p, fileOf home file = .ok p) ∧ ∃ f, formatOf format = .ok f
  | _ => True

/-- The setup that stands after an act, if one did before it. -/
def standing (s : Option Setting) : Act → Option Setting
  | setup level stream file format =>
    match levelOf level with
    | .ok _ => Setting.of? home level stream file format
    | .error _ => s
  | _ => s

end Act

section
variable (home : Folder) (acts : List Act) (a : Act)

/-- The last setup that was not refused. -/
def latest? : Option Setting := (acts.filterMap (Act.setting? home)).getLast?

/-- The setup whose handlers were not taken away by a later one. -/
def standing? : Option Setting := acts.foldl (Act.standing home) none

theorem run_append : run home (acts ++ [a]) = (run home acts).step a := by simp [run]

theorem latest?_append :
    latest? home (acts ++ [a]) = (a.setting? home).or (latest? home acts) := by
  rw [latest?, latest?, List.filterMap_append, List.getLast?_append]
  cases ha : a.setting? home <;> simp [ha]

theorem standing?_append :
    standing? home (acts ++ [a]) = a.standing home (standing? home acts) := by
  simp [standing?]

end

variable {home : Folder}

/-- A usable act leaves the setup that stands alone, unless it is one that is not refused. -/
theorem Act.IsUsable.standing_eq {a : Act} (h : a.IsUsable home) (s : Option Setting) :
    a.standing home s = (a.setting? home).or s := by
  cases a with
  | setup level stream file format =>
    rcases h with ⟨e, hlevel⟩ | ⟨⟨p, hfile⟩, ⟨f, hformat⟩⟩
    · simp [Act.standing, Act.setting?, Setting.of?, hlevel]
    · cases hlevel : levelOf level with
      | error e => simp [Act.standing, Act.setting?, Setting.of?, hlevel]
      | ok l => simp [Act.standing, Act.setting?, Setting.of?, hlevel, hfile, hformat]
  | _ => rfl

theorem standing?_eq_latest? {acts : List Act} (h : ∀ a ∈ acts, a.IsUsable home) :
    standing? home acts = latest? home acts := by
  induction acts using List.reverseRecOn with
  | nil => rfl
  | append_singleton acts a ih =>
    rw [standing?_append, latest?_append, (h a (by simp)).standing_eq,
      ih fun a ha => h a (List.mem_append_left _ ha)]

/-- What a history leaves of the handlers of a journal, and of the notes about them. -/
structure Keeps (home : Folder) (j : Journal) (acts : List Act) (standing : Option Setting) :
    Prop where
  nodup : j.handlers.Nodup
  mem_iff : ∀ x, x ∈ j.handlers ↔ x = .silent ∨
    (∃ name, .attach name ∈ acts ∧ x = .application name) ∨ x ∈ j.installed
  installed : ∃ number, number + j.installed.length = j.made ∧
    j.installed = standing.elim [] fun s => s.handlers number
  level : j.level = (latest? home acts).elim (.number 0) (·.level)
  directory : j.folder.directoryLength = home.directoryLength

theorem keeps_nil : Keeps home { folder := home } [] none where
  nodup := List.nodup_singleton _
  mem_iff x := by simp
  installed := ⟨0, rfl, rfl⟩
  level := rfl
  directory := rfl

namespace Keeps
variable {acts : List Act} {s : Option Setting}

theorem attached_append {a : Act} (hattach : ∀ name, a ≠ .attach name) (name : String) :
    .attach name ∈ acts ++ [a] ↔ .attach name ∈ acts := by
  simp [(hattach name).symm]

theorem skip (h : Keeps home j acts s) {a : Act} (hattach : ∀ name, a ≠ .attach name)
    (hsetting : a.setting? home = none) : Keeps home j (acts ++ [a]) s := by
  refine { h with mem_iff := fun x => (h.mem_iff x).trans ?_, level := ?_ }
  · simp only [attached_append hattach]
  · rw [latest?_append, hsetting]
    exact h.level

theorem written (h : Keeps home j acts s) (streams : Texts) (files : List (Place × FileContent)) :
    Keeps home { j with streams, folder := { j.folder with files } } acts s :=
  ⟨h.nodup, h.mem_iff, h.installed, h.level, h.directory⟩

theorem attach (h : Keeps home j acts s) (name : String) :
    Keeps home (j.attach name) (acts ++ [.attach name]) s := by
  have hnames (x : Handler) :
      (∃ other, .attach other ∈ acts ++ [.attach name] ∧ x = .application other) ↔
        (∃ other, .attach other ∈ acts ∧ x = .application other) ∨ x = .application name := by
    simp only [List.mem_append, List.mem_singleton, Act.attach.injEq, or_and_right, exists_or,
      exists_eq_left]
  have hlevel : latest? home (acts ++ [.attach name]) = latest? home acts := latest?_append _ _ _
  unfold Journal.attach addHandler
  split
  · -- A handler that was added before is not added again.
    rename_i hmem
    refine { h with mem_iff := fun x => ?_, level := hlevel ▸ h.level }
    rw [hnames, h.mem_iff]
    refine ⟨Or.imp_right (Or.imp_left .inl), ?_⟩
    rintro (hx | (hx | rfl) | hx)
    · exact .inl hx
    · exact .inr (.inl hx)
    · exact (h.mem_iff _).mp hmem
    · exact .inr (.inr hx)
  · rename_i hnew
    refine ⟨?_, fun x => ?_, h.installed, hlevel ▸ h.level, h.directory⟩
    · refine List.nodup_append.mpr ⟨h.nodup, List.nodup_singleton _, fun x hx y hy heq => ?_⟩
      rw [heq, List.mem_singleton.mp hy] at hx
      exact hnew hx
    · show x ∈ j.handlers ++ [_] ↔ _
      rw [hnames, List.mem_append, List.mem_singleton, h.mem_iff, or_assoc, or_assoc, or_assoc,
        or_comm (a := x ∈ j.installed)]

theorem installed_eq (h : Keeps home j acts s) {x : Handler} (hx : x ∈ j.installed) :
    ∃ number sink format, x = .installed number sink format ∧ number < j.made := by
  obtain ⟨number, hmade, hinstalled⟩ := h.installed
  cases s with
  | none =>
    rw [hinstalled] at hx
    cases hx
  | some s =>
    rw [Option.elim_some] at hinstalled
    rw [hinstalled] at hx hmade
    obtain ⟨k, sink, format, heq, -, hlt⟩ := Setting.mem_handlers hx
    exact ⟨k, sink, format, heq, hmade ▸ hlt⟩

theorem uninstall (h : Keeps home j acts s) : Keeps home j.uninstall acts none := by
  rw [uninstall_eq]
  refine ⟨h.nodup.diff, fun x => ?_, ⟨j.made, rfl, rfl⟩, h.level, h.directory⟩
  show x ∈ j.handlers.diff j.installed ↔ _
  rw [h.nodup.mem_sdiff_iff, h.mem_iff]
  constructor
  · rintro ⟨hx | hx | hx, hnot⟩
    · exact .inl hx
    · exact .inr (.inl hx)
    · exact absurd hx hnot
  · have hother (hx : x = .silent ∨ ∃ name, .attach name ∈ acts ∧ x = .application name) :
        x ∉ j.installed := by
      intro hmem
      obtain ⟨number, sink, format, rfl, -⟩ := h.installed_eq hmem
      rcases hx with hx | ⟨name, -, hx⟩ <;> cases hx
    rintro (hx | hx | hx)
    · exact ⟨.inl hx, hother (.inl hx)⟩
    · exact ⟨.inr (.inl hx), hother (.inr hx)⟩
    · cases hx

theorem install (h : Keeps home j acts none) {a : Act} {new : Setting}
    (hattach : ∀ name, a ≠ .attach name) (hnew : a.setting? home = some new) :
    Keeps home (j.install new.level new.stream new.file new.format) (acts ++ [a])
      (some new) := by
  have hinstalled : j.installed = [] := by
    obtain ⟨_, -, hinstalled⟩ := h.installed
    exact hinstalled
  have hnodup : (j.handlers ++ new.handlers j.made).Nodup := by
    refine List.nodup_append.mpr ⟨h.nodup, new.handlers_nodup _, fun x hx y hy heq => ?_⟩
    -- No handler of a setup is left.
    obtain ⟨k, sink, format, rfl, -⟩ := Setting.mem_handlers hy
    have hold := (h.mem_iff x).mp hx
    rw [heq, hinstalled] at hold
    rcases hold with hold | ⟨name, -, hold⟩ | hold <;> cases hold
  obtain ⟨files, hinstall⟩ := Setting.install_eq hnodup
  rw [hinstall, hinstalled, List.nil_append]
  refine ⟨hnodup, fun x => ?_, ⟨j.made, rfl, rfl⟩, ?_, h.directory⟩
  · show x ∈ j.handlers ++ new.handlers j.made ↔ _
    rw [List.mem_append, h.mem_iff, hinstalled]
    simp only [attached_append hattach, List.not_mem_nil, or_false, or_assoc]
  · rw [latest?_append, hnew]
    rfl

theorem setup (h : Keeps home j acts s) (level : Value) (stream : String) (file format : Value) :
    Keeps home (j.setup level stream file format).1 (acts ++ [.setup level stream file format])
      ((Act.setup level stream file format).standing home s) := by
  rcases setup_cases h.directory level stream file format with ⟨e, hlevel, hnone, hsetup⟩ |
    ⟨l, e, hlevel, hnone, hsetup⟩ | ⟨l, new, hlevel, hnew, hsetup⟩
  · rw [hsetup, Act.standing, hlevel]
    exact h.skip (by simp) hnone
  · rw [hsetup, Act.standing, hlevel]
    show Keeps home j.uninstall _ (Setting.of? _ _ _ _ _)
    rw [hnone]
    exact h.uninstall.skip (by simp) hnone
  · rw [hsetup, Act.standing, hlevel]
    show Keeps home _ _ (Setting.of? _ _ _ _ _)
    rw [hnew]
    exact h.uninstall.install (by simp) hnew

theorem step (h : Keeps home j acts s) (a : Act) :
    Keeps home (j.step a) (acts ++ [a]) (a.standing home s) := by
  cases a with
  | setup level stream file format => exact h.setup level stream file format
  | attach name => exact h.attach name
  | record r =>
    obtain ⟨streams, files, heq⟩ := record_eq j r
    show Keeps home (j.record r) _ s
    rw [heq]
    exact (h.skip (by simp) rfl).written streams files
  | event e =>
    obtain ⟨streams, files, heq⟩ := event_eq j e
    show Keeps home (j.event e) _ s
    rw [heq]
    exact (h.skip (by simp) rfl).written streams files

end Keeps

theorem run_keeps (home : Folder) (acts : List Act) :
    Keeps home (run home acts) acts (standing? home acts) := by
  -- By induction on the history, one step at a time.
  induction acts using List.reverseRecOn with
  | nil => exact keeps_nil
  | append_singleton acts a ih =>
    rw [run_append, standing?_append]
    exact ih.step a

/-- Whether a setup is refused does not depend on what happened before. -/
theorem setup_eq_ok (hhome : j.folder.directoryLength = home.directoryLength) (level : Value)
    (stream : String) (file format : Value) :
    (j.setup level stream file format).2 = .ok () ↔
      ∃ s, Setting.of? home level stream file format = some s := by
  rcases setup_cases hhome level stream file format with ⟨e, -, hnone, hsetup⟩ |
    ⟨l, e, -, hnone, hsetup⟩ | ⟨l, new, -, hnew, hsetup⟩
  · simp [hsetup, hnone]
  · simp [hsetup, hnone]
  · simp [hsetup, hnew]

theorem setup_unknown (j : Journal) {name : String} (h : Level.ofName? name = none)
    (stream : String) (file format : Value) :
    j.setup (.text name) stream file format = (j, .error (.setting (.logLevel name))) := by
  simp [setup, levelOf, h]

/-- Setups replace each other and nothing else. At any moment of a history in which setups are
refused for their levels only, the handlers of a journal are the silent one, those that the
application added, and those of the last setup that was not refused: one for its stream, and one
for its file if it asked for one. None of them is there twice, and the level is that of this
setup. A setup with an unknown level changes nothing. -/
theorem run_carries {home : Folder} {acts : List Act} (h : ∀ a ∈ acts, a.IsUsable home) :
    (run home acts).handlers.Nodup ∧
      (∃ number, ∀ x, x ∈ (run home acts).handlers ↔ x = .silent ∨
        (∃ name, .attach name ∈ acts ∧ x = .application name) ∨
          ∃ s ∈ latest? home acts, x = .installed number (.stream s.stream) s.format ∨
            ∃ place ∈ s.file, x = .installed (number + 1) (.file place) s.format) ∧
        (run home acts).level = (latest? home acts).elim (.number 0) (·.level) ∧
          (∀ level stream file format,
            ((run home acts).setup level stream file format).2 = .ok () ↔
              ∃ s, Setting.of? home level stream file format = some s) ∧
            ∀ name stream file format, Level.ofName? name = none →
              (run home acts).setup (.text name) stream file format =
                (run home acts, .error (.setting (.logLevel name))) := by
  have hkeeps := run_keeps home acts
  rw [standing?_eq_latest? h] at hkeeps
  obtain ⟨number, -, hinstalled⟩ := hkeeps.installed
  refine ⟨hkeeps.nodup, ⟨number, fun x => ?_⟩, hkeeps.level, setup_eq_ok hkeeps.directory,
    fun name stream file format hname => setup_unknown _ hname stream file format⟩
  rw [hkeeps.mem_iff, hinstalled]
  cases latest? home acts with
  | none => simp
  | some s => simp [Setting.handlers, setupHandlers, eq_comm]

/-- Two setups, the second one with a file, and one more that is refused, between handlers of an
application. -/
theorem run_carries_refused :
    let home : Folder := { directoryLength := 6 }
    let format : Value := .text LogFormat.standard
    let acts : List Act := [.attach "own", .setup (.text "INFO") "out" .null format,
      .attach "audit", .setup (.text "debug") "err" (.text "run.log") format,
      .setup (.text "LOUD") "out" .null format, .attach "own"]
    (∀ a ∈ acts, a.IsUsable home) ∧ (run home acts).level = .number 10 ∧
      (run home acts).handlers.Nodup ∧ ∃ number place,
        .installed number (.stream "err") LogFormat.standard ∈ (run home acts).handlers ∧
          .installed (number + 1) (.file place) LogFormat.standard ∈ (run home acts).handlers ∧
            .application "own" ∈ (run home acts).handlers ∧
              ∀ k, .installed k (.stream "out") LogFormat.standard ∉ (run home acts).handlers := by
  intro home format acts
  obtain ⟨p, hp, hsome⟩ := Outcome.exists_of_any (x := fileOf home (.text "run.log"))
    (p := Option.isSome) (by decide +kernel)
  obtain ⟨place, rfl⟩ := Option.isSome_iff_exists.mp hsome
  have hnone : fileOf home .null = .ok none := rfl
  have hformat : formatOf format = .ok LogFormat.standard := by decide +kernel
  have hinfo : levelOf (.text "INFO") = .ok (.number 20) := by decide +kernel
  have hdebug : levelOf (.text "debug") = .ok (.number 10) := by decide +kernel
  have hloud : levelOf (.text "LOUD") = .error (.setting (.logLevel "LOUD")) := by decide +kernel
  have husable : ∀ a ∈ acts, a.IsUsable home := by
    simp [acts, Act.IsUsable, hp, hnone, hformat, hloud]
  have hlatest : latest? home acts =
      some ⟨.number 10, "err", some place, LogFormat.standard⟩ := by
    simp [latest?, acts, List.findSome?_cons, Act.setting?, Setting.of?, hp, hformat, hdebug,
      hloud]
  obtain ⟨hnodup, ⟨number, hmem⟩, hlevel, -⟩ := run_carries husable
  simp only [hlatest] at hmem hlevel
  refine ⟨husable, hlevel, hnodup, number, place, ?_, ?_, ?_, fun k => ?_⟩
  · simp [hmem]
  · simp [hmem]
  · simp [hmem, acts]
  · simp [hmem]

end Journal

end DiagramScript
