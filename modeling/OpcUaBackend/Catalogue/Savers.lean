import OpcUaBackend.Catalogue.RoundTrip
import OpcUaBackend.Foundation.Replacement

/-!
# Saving a catalogue while others save theirs

`saveCatalogue` writes into a temporary file and renames it, so that backends of several processes
may save to one cache file and a process may end at any point of it. A call that nobody disturbs
does what `saveCatalogue` is said to do. After any run of such calls, each to its own end or not,
a cache file is read as one of the catalogues that were saved to it, the last one that was renamed,
or as it was read before.

An empty temporary file is not renamed. A part that is not empty is, so that a stream may only
break off before anything has reached the file. An exception of the writer leaves the temporary
file behind, and the cache file as it was.

## Main definitions

* `Saving`: a call of `saveCatalogue` for a catalogue that can be read back
* `savers`, `saveSteps`: the calls step by step, and the steps of one call

## Main results

* `saveCatalogue_steps`: one call without the others
* `steps_readCatalogue`: what the cache files are read as after any run
* `steps_broken`: a part that is not empty replaces a cache file
-/

namespace OpcUaBackend

open Foundation

/-- A call of `saveCatalogue`, for a catalogue with a register. -/
structure Saving (paths : RegisterPaths) where
  serverAddress : String
  calls : List Property
  catalogue : OpcUaBackendRegisterCatalogue
  xmlfile : String
  legal : LegalCalls paths serverAddress calls
  nonempty : calls ≠ []
  made : addProperties paths calls = .ok catalogue

variable {φ ι : Type} [DecidableEq ι] (paths : RegisterPaths) (modes : AccessModeTexts)
  (dom : Dom φ)

/-- The content of the file that a call writes. -/
def Saving.content {paths : RegisterPaths} (save : Saving paths) : φ :=
  dom.write (catalogueDocument paths modes save.catalogue)

/-- Any number of calls of `saveCatalogue`, step by step. -/
def savers (saves : ι → Saving paths) : Machine (Store ι String φ) (WriterStep ι String φ) :=
  replacing (fun i => (saves i).xmlfile) (fun i => (saves i).content modes dom) dom.isEmpty

/-- The steps of one call. -/
def saveSteps (i : ι) (content : φ) (answers : FileAnswers) : List (WriterStep ι String φ) :=
  match answers.unique_path with
  | .error _ => [.create i none]
  | .ok temporaryName =>
    match answers.written with
    | .error _ => [.create i (some temporaryName), .throw i]
    | .ok written =>
      [.create i (some temporaryName), .close i written, .check i] ++
        if !written || dom.isEmpty content then [] else [.rename i answers.rename.isOk]

variable {paths modes dom} {saves : ι → Saving paths} {s s' : Store ι String φ}

/-! ## One call -/

/-- A call has left the files of `saveCatalogue`, or those that are to be replaced as they were. -/
def EndsAs (saves : ι → Saving paths) (i : ι) (s s' : Store ι String φ) :
    Except SaveFailure (Files φ) → Prop
  | .ok files => s'.stage i = .replaced ∧ s'.files = files
  | .error _ => s'.stage i = .failed ∧ ∀ j, s'.files (saves j).xmlfile = s.files (saves j).xmlfile

section Call

variable {i : ι} {answers : FileAnswers} {name : String}

/-- The exception of the writer. -/
theorem saveCatalogue_steps_throw (hi : s.stage i = .fresh)
    (hapart : ∀ j, (saves j).xmlfile ≠ name) (hfree : ∀ j, (s.stage j).name? ≠ some name)
    (hpath : answers.unique_path = .ok name) {what : String}
    (hstream : answers.written = .error what) :
    ∃ s', (savers paths modes dom saves).Steps (fun _ _ => True) s
        (saveSteps dom i ((saves i).content modes dom) answers) s' ∧
      EndsAs saves i s s'
        (saveCatalogue paths modes dom answers (saves i).catalogue (saves i).xmlfile s.files) := by
  obtain ⟨s₂, hthrown, hfailed, hfiles⟩ :=
    steps_throw (fun j => (saves j).xmlfile) (fun j => (saves j).content modes dom) dom.isEmpty
      hi hapart hfree
  have hsave : saveCatalogue paths modes dom answers (saves i).catalogue (saves i).xmlfile s.files
      = .error (.xmlException what) := by
    rw [saveCatalogue, hpath]
    simp only [hstream]
  rw [saveSteps, hpath, hsave]
  simp only [hstream]
  refine ⟨s₂, hthrown, hfailed, fun j => ?_⟩
  rw [hfiles, Function.update_of_ne (hapart j)]

/-- The stream is closed, and the temporary file is looked at. -/
theorem saveCatalogue_steps_close (hi : s.stage i = .fresh)
    (hapart : ∀ j, (saves j).xmlfile ≠ name) (hfree : ∀ j, (s.stage j).name? ≠ some name)
    (hpath : answers.unique_path = .ok name) {written : Bool}
    (hstream : answers.written = .ok written) :
    ∃ s', (savers paths modes dom saves).Steps (fun _ _ => True) s
        (saveSteps dom i ((saves i).content modes dom) answers) s' ∧
      EndsAs saves i s s'
        (saveCatalogue paths modes dom answers (saves i).catalogue (saves i).xmlfile s.files) := by
  obtain ⟨s₂, hwritten, hclosed, hfiles⟩ :=
    steps_closed (fun j => (saves j).xmlfile) (fun j => (saves j).content modes dom) dom.isEmpty
      hi hapart hfree written
  have hkept : ∀ j, s₂.files (saves j).xmlfile = s.files (saves j).xmlfile := by
    intro j
    rw [hfiles, Function.update_of_ne (hapart j)]
  rw [saveSteps, hpath]
  simp only [hstream]
  by_cases hnone : (!written || dom.isEmpty ((saves i).content modes dom)) = true
  · -- nothing was written
    have hempty : (s₂.files name).all dom.isEmpty = true := by
      rw [hfiles, Function.update_self]
      cases written <;> simp_all
    have hsave : saveCatalogue paths modes dom answers (saves i).catalogue (saves i).xmlfile
        s.files = .error (.runtimeError "Failed to save cache File") := by
      rw [saveCatalogue, hpath]
      simp only [hstream]
      exact if_pos hnone
    rw [hsave, if_pos hnone]
    exact ⟨_, hwritten.append (.cons trivial (step_check_empty _ _ _ hclosed hempty) (.nil _)),
      Function.update_self .., hkept⟩
  · obtain ⟨hwhole, hcontent⟩ : written = true ∧
        dom.isEmpty ((saves i).content modes dom) = false := by simpa using hnone
    rw [hwhole, if_pos rfl] at hfiles
    have hcheck := step_check (fun j => (saves j).xmlfile)
      (fun j => (saves j).content modes dom) dom.isEmpty hclosed
      (by rw [hfiles, Function.update_self]) hcontent
    have hchecked : (s₂.goOn i (.checked name)).stage i = .checked name :=
      Function.update_self ..
    have hrun := fun done => hwritten.append (.cons trivial hcheck
      (.cons trivial (step_rename _ _ _ hchecked done) (.nil _)))
    rw [if_neg hnone]
    cases hrename : answers.rename with
    | error what =>
      have hsave : saveCatalogue paths modes dom answers (saves i).catalogue (saves i).xmlfile
          s.files = .error (.runtimeError ("Failed to replace cache file: " ++ what)) := by
        rw [saveCatalogue, hpath]
        simp only [hstream, hrename]
        exact if_neg hnone
      rw [hsave]
      exact ⟨_, hrun false, Function.update_self .., hkept⟩
    | ok =>
      have hsave : saveCatalogue paths modes dom answers (saves i).catalogue (saves i).xmlfile
          s.files = .ok (Function.update (Function.update s.files name none) (saves i).xmlfile
            (some ((saves i).content modes dom))) := by
        rw [saveCatalogue, hpath]
        simp only [hstream, hrename]
        exact if_neg hnone
      rw [hsave]
      refine ⟨_, hrun true, Function.update_self .., ?_⟩
      -- the temporary file is gone, and its content is in the cache file
      show Function.update (Function.update s₂.files name none) (saves i).xmlfile
        (s₂.files name) = _
      rw [hfiles, Function.update_idem, Function.update_self]

/-- **One call.** Its steps, one after the other, do what `saveCatalogue` does. -/
theorem saveCatalogue_steps (hi : s.stage i = .fresh)
    (hname : ∀ temporaryName, answers.unique_path = .ok temporaryName →
      (∀ j, (saves j).xmlfile ≠ temporaryName) ∧ ∀ j, (s.stage j).name? ≠ some temporaryName) :
    ∃ s', (savers paths modes dom saves).Steps (fun _ _ => True) s
        (saveSteps dom i ((saves i).content modes dom) answers) s' ∧
      EndsAs saves i s s'
        (saveCatalogue paths modes dom answers (saves i).catalogue (saves i).xmlfile s.files) := by
  cases hpath : answers.unique_path with
  | error what =>
    have hsave : saveCatalogue paths modes dom answers (saves i).catalogue (saves i).xmlfile s.files
        = .error (.runtimeError ("Failed to generate temporary path: " ++ what)) := by
      rw [saveCatalogue, hpath]
    rw [saveSteps, hpath, hsave]
    refine ⟨s.goOn i .failed, .cons trivial ⟨trivial, ?_⟩ (.nil _), Function.update_self .., ?_⟩
    · simp [WriterStep.exec, hi]
    · exact fun j => rfl
  | ok name =>
    obtain ⟨hapart, hfree⟩ := hname name hpath
    cases hstream : answers.written with
    | error what => exact saveCatalogue_steps_throw hi hapart hfree hpath hstream
    | ok written => exact saveCatalogue_steps_close hi hapart hfree hpath hstream

end Call

/-! ## Any number of calls -/

/-- A file with the content of a call is read as the catalogue of the call. -/
theorem Saving.readCatalogue (hp : paths.Documented) (hm : modes.Documented)
    (hd : dom.Documented) (save : Saving paths) {xmlfile : String} {files : Files φ}
    (hfile : files xmlfile = some (save.content modes dom)) :
    ∃ c, OpcUaBackend.readCatalogue paths modes dom xmlfile files = .ok c ∧
      List.Forall₂ (SameRegister paths) save.catalogue c := by
  obtain ⟨c, hc, hadded, hnames⟩ := addProperties_ok save.legal
  obtain rfl : c = save.catalogue := Except.ok.inj (hc.symm.trans save.made)
  rw [readCatalogue_saved hp hm hd save.legal.text hadded (hnames ▸ save.legal.distinct) hfile]
  have hlength := congrArg List.length hnames
  rw [List.length_map, List.length_map] at hlength
  cases hcat : save.catalogue with
  | nil =>
    rw [hcat] at hlength
    exact absurd (List.eq_nil_of_length_eq_zero hlength.symm) save.nonempty
  | cons r c =>
    have haddress : r.serverAddress ≠ "" := by
      rw [(hadded r (hcat ▸ List.mem_cons_self ..)).serverAddress]
      exact save.legal.nonempty
    rw [addressRead, if_neg haddress]
    refine ⟨_, rfl, ?_⟩
    rw [List.forall₂_map_right_iff]
    exact List.forall₂_same.mpr fun q _ => sameRegister_reread hp q

/-- Reading depends on the one file only. -/
theorem readCatalogue_congr {xmlfile : String} {files files' : Files φ}
    (h : files' xmlfile = files xmlfile) :
    readCatalogue paths modes dom xmlfile files' = readCatalogue paths modes dom xmlfile files := by
  unfold readCatalogue createDomParser
  rw [h]

/-- **The cache files.** After every run of any number of calls, in any order of their steps and
with each at its end or not, a cache file is read as the catalogue that was renamed to it last, or
as it was read at first. -/
theorem steps_readCatalogue (hp : paths.Documented) (hm : modes.Documented) (hd : dom.Documented)
    {steps : List (WriterStep ι String φ)} (hinit : (savers paths modes dom saves).init s)
    (hs : (savers paths modes dom saves).Steps (BreaksOffEmpty dom.isEmpty) s steps s') (i : ι) :
    match s'.replaced.find? fun j => (saves j).xmlfile = (saves i).xmlfile with
    | some j => ∃ c, readCatalogue paths modes dom (saves i).xmlfile s'.files = .ok c ∧
        List.Forall₂ (SameRegister paths) (saves j).catalogue c
    | none => readCatalogue paths modes dom (saves i).xmlfile s'.files
        = readCatalogue paths modes dom (saves i).xmlfile s.files := by
  have hfile := steps_replaced hinit hs i
  rw [Store.expected] at hfile
  split
  · rename_i j hlast
    rw [hlast] at hfile
    exact (saves j).readCatalogue hp hm hd hfile
  · rename_i hnone
    rw [hnone] at hfile
    exact readCatalogue_congr hfile

/-- Of two processes that save to one file, one ends in between and its stream breaks off. -/
theorem steps_readCatalogue_two :
    ∃ (saves : Bool → Saving slashPaths) (s : Store Bool String (Option Document))
      (c : OpcUaBackendRegisterCatalogue),
      (∀ i, (saves i).calls = twoProperties ∧ (saves i).xmlfile = "cache.xml") ∧
      s.stage false = .failed ∧ s.replaced = [true] ∧
      readCatalogue slashPaths flagTexts Dom.tree "cache.xml" s.files = .ok c ∧
      List.Forall₂ (SameRegister slashPaths) (saves true).catalogue c := by
  obtain ⟨c, hc, -, -⟩ := addProperties_ok twoProperties_legal
  let save : Saving slashPaths :=
    { serverAddress := _, calls := _, catalogue := c, xmlfile := "cache.xml"
      legal := twoProperties_legal, nonempty := List.cons_ne_nil _ _, made := hc }
  let s₀ : Store Bool String (Option Document) :=
    { files := fun _ => none, stage := fun _ => .fresh }
  have hrun : ∃ s', (savers slashPaths flagTexts Dom.tree fun _ => save).Steps
      (BreaksOffEmpty Dom.tree.isEmpty) s₀
      [.create false (some "a.tmp"), .create true (some "b.tmp"), .close true true,
        .close false false, .check true, .rename true true, .check false] s' ∧
      s'.stage false = .failed ∧ s'.replaced = [true] := by
    refine ⟨_, .cons trivial ⟨?_, rfl⟩ (.cons trivial ⟨?_, rfl⟩ (.cons trivial ⟨trivial, rfl⟩
      (.cons ?_ ⟨trivial, rfl⟩ (.cons trivial ⟨trivial, rfl⟩ (.cons trivial ⟨trivial, rfl⟩
        (.cons trivial ⟨trivial, rfl⟩ (.nil _))))))), rfl, rfl⟩
    · exact ⟨fun _ => (by decide : "cache.xml" ≠ "a.tmp"), fun _ => by simp [s₀, Stage.name?]⟩
    · refine ⟨fun _ => (by decide : "cache.xml" ≠ "b.tmp"), fun j => ?_⟩
      cases j <;> simp [Store.goOn, Store.put, s₀, Stage.name?]
    · intro name hname
      obtain rfl : "a.tmp" = name := Stage.writing.inj hname
      rfl
  obtain ⟨s', hs, hfailed, hreplaced⟩ := hrun
  have hread := steps_readCatalogue slashPaths_documented flagTexts_documented Dom.tree_documented
    (s := s₀) ⟨rfl, rfl⟩ hs true
  rw [hreplaced] at hread
  obtain ⟨c', hc', hsame⟩ := hread
  exact ⟨fun _ => save, s', c', fun _ => ⟨rfl, rfl⟩, hfailed, hreplaced, hc', hsame⟩

/-- Of a stream that breaks off, a part that is not empty replaces the cache file and is read. -/
theorem steps_broken {i : ι} (hi : s.stage i = .fresh) {name : String}
    (hapart : ∀ j, (saves j).xmlfile ≠ name) (hfree : ∀ j, (s.stage j).name? ≠ some name)
    {part : φ} (hpart : dom.isEmpty part = false) :
    ∃ s', (savers paths modes dom saves).Steps (fun _ _ => True) s
        [.create i (some name), .write i part, .close i false, .check i, .rename i true] s' ∧
      readCatalogue paths modes dom (saves i).xmlfile s'.files
        = readCatalogue paths modes dom (saves i).xmlfile fun _ => some part := by
  obtain ⟨s', hs, hfile⟩ := steps_part _ _ _ hi hapart hfree hpart
  exact ⟨s', hs, readCatalogue_congr hfile⟩

end OpcUaBackend
