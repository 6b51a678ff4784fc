import Mathlib.Logic.Function.Basic
import OpcUaBackend.Foundation.Machine

/-!
# Replacing a file as a whole

A writer puts its content into a file of another name, one part after the other, closes it, looks
whether it is empty and renames it. Any number of writers do so at the same time, each of them can
stop anywhere, and their streams can break off or throw. A file that is replaced in this way holds
at any time what it held at first or the whole content of a writer, as long as a stream that breaks
off leaves an empty file: a part that is not empty is taken for the whole.

## Main definitions

* `Stage`, `Store`: where the writers stand, and the files
* `WriterStep.exec`, `replacing`: the steps, and the machine
* `BreaksOffEmpty`: a stream that breaks off leaves an empty file

## Main results

* `steps_closed`, `step_check`, `step_rename`: a writer that is not disturbed
* `steps_throw`: a writer that an exception stops
* `steps_part`: a part replaces a file
* `steps_replaced`: what the files hold after any run
-/

namespace Foundation

variable {ι ν φ : Type*}

/-- Where a writer stands; up to the renaming it has a file of another name. -/
inductive Stage (ν : Type*)
  | fresh
  | writing (name : ν)
  | closed (name : ν)
  | checked (name : ν)
  | replaced
  | failed
  deriving DecidableEq

/-- The name of the file that a writer uses. -/
def Stage.name? : Stage ν → Option ν
  | writing name | closed name | checked name => some name
  | _ => none

/-- The files, the writers, and, newest first, the writers that have replaced their files. -/
structure Store (ι ν φ : Type*) where
  files : ν → Option φ
  stage : ι → Stage ν
  replaced : List ι := []

inductive WriterStep (ι ν φ : Type*)
  /-- the writer is given a name, and opens the file; or there is no name -/
  | create (i : ι) (name : Option ν)
  /-- so much has reached the file -/
  | write (i : ι) (part : φ)
  /-- the stream is closed, after everything has reached the file or after it broke off -/
  | close (i : ι) (whole : Bool)
  /-- an exception leaves the writing, wherever it stands -/
  | throw (i : ι)
  | check (i : ι)
  | rename (i : ι) (done : Bool)

section Steps

variable [DecidableEq ι] [DecidableEq ν] (target : ι → ν) (content : ι → φ) (isEmpty : φ → Bool)

/-- The writer goes on to a stage. -/
def Store.goOn (s : Store ι ν φ) (i : ι) (stage : Stage ν) : Store ι ν φ :=
  { s with stage := Function.update s.stage i stage }

/-- A file is set. -/
def Store.put (s : Store ι ν φ) (name : ν) (file : Option φ) : Store ι ν φ :=
  { s with files := Function.update s.files name file }

/-- The file of a name replaces the writer's one. -/
def Store.replace (s : Store ι ν φ) (i : ι) (name : ν) : Store ι ν φ :=
  { ((s.goOn i .replaced).put name none).put (target i) (s.files name) with
    replaced := i :: s.replaced }

/-- One step, where the writer is at its place. A file into which nothing was written counts as
none. -/
def WriterStep.exec (s : Store ι ν φ) : WriterStep ι ν φ → Option (Store ι ν φ)
  | create i name =>
    match s.stage i, name with
    | .fresh, some name => some ((s.goOn i (.writing name)).put name none)
    | .fresh, none => some (s.goOn i .failed)
    | _, _ => none
  | write i part =>
    match s.stage i with
    | .writing name => some (s.put name (some part))
    | _ => none
  | close i whole =>
    match s.stage i with
    | .writing name =>
      let s := s.goOn i (.closed name)
      some (if whole then s.put name (some (content i)) else s)
    | _ => none
  | throw i =>
    match s.stage i with
    | .writing _ => some (s.goOn i .failed)
    | _ => none
  | check i =>
    match s.stage i with
    | .closed name =>
      some (s.goOn i (if (s.files name).all isEmpty then .failed else .checked name))
    | _ => none
  | rename i done =>
    match s.stage i with
    | .checked name => some (if done then s.replace target i name else s.goOn i .failed)
    | _ => none

/-- A name that is given is neither that of a file to be replaced nor in use. -/
def WriterStep.Documented (s : Store ι ν φ) : WriterStep ι ν φ → Prop
  | create _ (some name) => (∀ j, target j ≠ name) ∧ ∀ j, (s.stage j).name? ≠ some name
  | _ => True

def replacing : Machine (Store ι ν φ) (WriterStep ι ν φ) where
  init s := s.stage = (fun _ => .fresh) ∧ s.replaced = []
  step s step s' := step.Documented target s ∧ step.exec target content isEmpty s = some s'

/-- A stream that breaks off leaves an empty file. -/
def BreaksOffEmpty (s : Store ι ν φ) : WriterStep ι ν φ → Prop
  | .close i false => ∀ name, s.stage i = .writing name → (s.files name).all isEmpty = true
  | _ => True

/-- What a file that is replaced holds: the content of the writer that replaced it last, or what
it held at first. -/
def Store.expected (s : Store ι ν φ) (first : ν → Option φ) (name : ν) : Option φ :=
  match s.replaced.find? fun i => target i = name with
  | some i => some (content i)
  | none => first name

end Steps

/-! ## One writer -/

section Writer

variable [DecidableEq ι] [DecidableEq ν] (target : ι → ν) (content : ι → φ) (isEmpty : φ → Bool)
  {s : Store ι ν φ} {i : ι} {name : ν}

/-- A writer that is not disturbed has a file with all its content, or with none of it. -/
theorem steps_closed (hi : s.stage i = .fresh) (hapart : ∀ j, target j ≠ name)
    (hfree : ∀ j, (s.stage j).name? ≠ some name) (whole : Bool) :
    ∃ s', (replacing target content isEmpty).Steps (fun _ _ => True) s
        [.create i (some name), .close i whole] s' ∧ s'.stage i = .closed name ∧
      s'.files = Function.update s.files name (if whole then some (content i) else none) := by
  let s₁ := (s.goOn i (.writing name)).put name none
  have hwriting : s₁.stage i = .writing name := Function.update_self ..
  have hcreate : (replacing target content isEmpty).step s (.create i (some name)) s₁ :=
    ⟨⟨hapart, hfree⟩, by simp [WriterStep.exec, hi, s₁]⟩
  refine ⟨(s₁.goOn i (.closed name)).put name (if whole then some (content i) else none),
    .cons trivial hcreate (.cons trivial ⟨trivial, ?_⟩ (.nil _)), ?_, ?_⟩
  · cases whole with
    | true => simp [WriterStep.exec, hwriting]
    | false => simp [WriterStep.exec, s₁, Store.goOn, Store.put]
  · exact Function.update_self ..
  · exact Function.update_idem ..

/-- An exception leaves the file that was opened, with nothing in it where nothing was written. -/
theorem steps_throw (hi : s.stage i = .fresh) (hapart : ∀ j, target j ≠ name)
    (hfree : ∀ j, (s.stage j).name? ≠ some name) :
    ∃ s', (replacing target content isEmpty).Steps (fun _ _ => True) s
        [.create i (some name), .throw i] s' ∧ s'.stage i = .failed ∧
      s'.files = Function.update s.files name none := by
  let s₁ := (s.goOn i (.writing name)).put name none
  have hwriting : s₁.stage i = .writing name := Function.update_self ..
  have hcreate : (replacing target content isEmpty).step s (.create i (some name)) s₁ :=
    ⟨⟨hapart, hfree⟩, by simp [WriterStep.exec, hi, s₁]⟩
  have hthrow : (replacing target content isEmpty).step s₁ (.throw i) (s₁.goOn i .failed) :=
    ⟨trivial, by simp [WriterStep.exec, hwriting]⟩
  exact ⟨_, .cons trivial hcreate (.cons trivial hthrow (.nil _)), Function.update_self .., rfl⟩

/-- A file that is empty is not renamed. -/
theorem step_check_empty (hi : s.stage i = .closed name)
    (hempty : (s.files name).all isEmpty) :
    (replacing target content isEmpty).step s (.check i) (s.goOn i .failed) :=
  ⟨trivial, by simp [WriterStep.exec, hi, hempty]⟩

theorem step_check (hi : s.stage i = .closed name) {file : φ} (hfile : s.files name = some file)
    (hpart : isEmpty file = false) :
    (replacing target content isEmpty).step s (.check i) (s.goOn i (.checked name)) :=
  ⟨trivial, by simp [WriterStep.exec, hi, hfile, hpart]⟩

theorem step_rename (hi : s.stage i = .checked name) (done : Bool) :
    (replacing target content isEmpty).step s (.rename i done)
      (if done then s.replace target i name else s.goOn i .failed) :=
  ⟨trivial, by simp [WriterStep.exec, hi]⟩

/-- A part that is not empty is taken for the whole. -/
theorem steps_part (hi : s.stage i = .fresh) (hapart : ∀ j, target j ≠ name)
    (hfree : ∀ j, (s.stage j).name? ≠ some name) {part : φ} (hpart : isEmpty part = false) :
    ∃ s', (replacing target content isEmpty).Steps (fun _ _ => True) s
        [.create i (some name), .write i part, .close i false, .check i, .rename i true] s' ∧
      s'.files (target i) = some part := by
  let s₁ := (s.goOn i (.writing name)).put name none
  let s₂ := (s₁.put name (some part)).goOn i (.closed name)
  have hcreate : (replacing target content isEmpty).step s (.create i (some name)) s₁ :=
    ⟨⟨hapart, hfree⟩, by simp [WriterStep.exec, hi, s₁]⟩
  have hwriting : s₁.stage i = .writing name := Function.update_self ..
  have hwrite : (replacing target content isEmpty).step s₁ (.write i part)
      (s₁.put name (some part)) := ⟨trivial, by simp [WriterStep.exec, hwriting]⟩
  have hclose : (replacing target content isEmpty).step (s₁.put name (some part))
      (.close i false) s₂ := ⟨trivial, by simp [WriterStep.exec, Store.put, hwriting, s₂]⟩
  have hfile : s₂.files name = some part := Function.update_self ..
  refine ⟨_, .cons trivial hcreate (.cons trivial hwrite (.cons trivial hclose (.cons trivial
    (step_check _ _ _ (Function.update_self ..) hfile hpart) (.cons trivial
      (step_rename _ _ _ (Function.update_self ..) true) (.nil _))))), ?_⟩
  exact (Function.update_self ..).trans hfile

end Writer

/-! ## The invariant -/

section Invariant

variable [DecidableEq ι] [DecidableEq ν] {target : ι → ν} {content : ι → φ} {isEmpty : φ → Bool}
  {first : ν → Option φ} {s s' : Store ι ν φ}

/-- Names in use are single and are not those of files to be replaced; a file that is closed is
empty or whole, and one that was checked is whole. -/
structure Store.Orderly (target : ι → ν) (content : ι → φ) (isEmpty : φ → Bool)
    (first : ν → Option φ) (s : Store ι ν φ) : Prop where
  apart : ∀ i name, (s.stage i).name? = some name → ∀ j, target j ≠ name
  single : ∀ i j name, (s.stage i).name? = some name → (s.stage j).name? = some name → i = j
  closed : ∀ i name, s.stage i = .closed name →
    s.files name = some (content i) ∨ (s.files name).all isEmpty = true
  checked : ∀ i name, s.stage i = .checked name → s.files name = some (content i)
  files : ∀ i, s.files (target i) = s.expected target content first (target i)

theorem Store.orderly_init (hs : (replacing target content isEmpty).init s) :
    s.Orderly target content isEmpty s.files where
  apart i name h := by simp [hs.1, Stage.name?] at h
  single i j name h := by simp [hs.1, Stage.name?] at h
  closed i name h := by simp [hs.1] at h
  checked i name h := by simp [hs.1] at h
  files i := by simp [expected, hs.2]

namespace Store.Orderly

variable {i : ι} {name : ν}

/-- A writer goes on to a stage with its own name, or with one that is free. -/
theorem goOn (h : s.Orderly target content isEmpty first) (i : ι) {stage : Stage ν}
    (hname : ∀ name, stage.name? = some name →
      (∀ j, target j ≠ name) ∧ ∀ j, j ≠ i → (s.stage j).name? ≠ some name)
    (hclosed : ∀ name, stage = .closed name →
      s.files name = some (content i) ∨ (s.files name).all isEmpty = true)
    (hchecked : ∀ name, stage = .checked name → s.files name = some (content i)) :
    (s.goOn i stage).Orderly target content isEmpty first := by
  have hstage : ∀ j st, (s.goOn i stage).stage j = st → (j = i ∧ stage = st) ∨
      (j ≠ i ∧ s.stage j = st) := by
    rintro j st rfl
    by_cases hji : j = i
    · subst hji
      exact .inl ⟨rfl, (Function.update_self j stage s.stage).symm⟩
    · exact .inr ⟨hji, by simp [Store.goOn, hji]⟩
  constructor
  case apart =>
    intro j n hn
    rcases hstage j _ rfl with ⟨-, he⟩ | ⟨-, he⟩
    · exact (hname n (he ▸ hn)).1
    · exact h.apart j n (he ▸ hn)
  case single =>
    intro j k n hj hk
    rcases hstage j _ rfl with ⟨rfl, hej⟩ | ⟨hji, hej⟩ <;>
      rcases hstage k _ rfl with ⟨rfl, hek⟩ | ⟨hki, hek⟩
    · rfl
    · exact absurd (hek ▸ hk) ((hname n (hej ▸ hj)).2 k hki)
    · exact absurd (hej ▸ hj) ((hname n (hek ▸ hk)).2 j hji)
    · exact h.single j k n (hej ▸ hj) (hek ▸ hk)
  case closed =>
    intro j n hn
    rcases hstage j _ hn with ⟨rfl, he⟩ | ⟨-, he⟩
    · exact hclosed n he
    · exact h.closed j n he
  case checked =>
    intro j n hn
    rcases hstage j _ hn with ⟨rfl, he⟩ | ⟨-, he⟩
    · exact hchecked n he
    · exact h.checked j n he
  case files => exact h.files

omit [DecidableEq ι] in
/-- The name of a writer is in no other use. -/
theorem own (h : s.Orderly target content isEmpty first) (hi : (s.stage i).name? = some name) :
    (∀ j, target j ≠ name) ∧ ∀ j, j ≠ i → (s.stage j).name? ≠ some name :=
  ⟨h.apart i name hi, fun j hji hj => hji (h.single j i name hj hi)⟩

omit [DecidableEq ι] in
/-- The file that a writer is writing is no other's. -/
theorem put (h : s.Orderly target content isEmpty first) (hi : s.stage i = .writing name)
    (file : Option φ) : (s.put name file).Orderly target content isEmpty first := by
  have hname : (s.stage i).name? = some name := by rw [hi, Stage.name?]
  -- whoever has closed or checked a file has another one
  have hother : ∀ j n, (s.stage j).name? = some n → s.stage j ≠ .writing name →
      (s.put name file).files n = s.files n := by
    intro j n hj hne
    refine Function.update_of_ne ?_ _ _
    rintro rfl
    obtain rfl := h.single j i n hj hname
    exact hne hi
  constructor
  case apart => exact h.apart
  case single => exact h.single
  case closed =>
    intro j n hn
    have hn' : s.stage j = .closed n := hn
    rw [hother j n (by rw [hn', Stage.name?]) (by rw [hn']; simp)]
    exact h.closed j n hn'
  case checked =>
    intro j n hn
    have hn' : s.stage j = .checked n := hn
    rw [hother j n (by rw [hn', Stage.name?]) (by rw [hn']; simp)]
    exact h.checked j n hn'
  case files =>
    intro j
    have hne : (s.put name file).files (target j) = s.files (target j) :=
      Function.update_of_ne (h.apart i name hname j) _ _
    exact hne.trans (h.files j)

/-- The file that was checked replaces the one it is for. -/
theorem replace (h : s.Orderly target content isEmpty first) (hi : s.stage i = .checked name) :
    (s.replace target i name).Orderly target content isEmpty first := by
  have hname : (s.stage i).name? = some name := by rw [hi, Stage.name?]
  have hgone : (s.goOn i .replaced).Orderly target content isEmpty first :=
    h.goOn i (by simp [Stage.name?]) (by simp) (by simp)
  have hother : ∀ n, n ≠ name → n ≠ target i → (s.replace target i name).files n = s.files n := by
    intro n hn ht
    exact (Function.update_of_ne ht _ _).trans (Function.update_of_ne hn _ _)
  -- a file in use by another writer stays as it is
  have huse : ∀ j n, ((s.goOn i .replaced).stage j).name? = some n →
      n ≠ name ∧ n ≠ target i := by
    intro j n hn
    refine ⟨?_, fun ht => hgone.apart j n hn i ht.symm⟩
    rintro rfl
    by_cases hji : j = i
    · subst hji
      simp [Store.goOn, Stage.name?] at hn
    · have hj : (s.stage j).name? = some n := by
        simpa [Store.goOn, Function.update_of_ne hji] using hn
      exact hji (h.single j i n hj hname)
  constructor
  case apart => exact hgone.apart
  case single => exact hgone.single
  case closed =>
    intro j n hn
    have hn' : (s.goOn i .replaced).stage j = .closed n := hn
    obtain ⟨hne, ht⟩ := huse j n (by rw [hn', Stage.name?])
    have hfile := hother n hne ht
    simp only [hfile]
    exact hgone.closed j n hn'
  case checked =>
    intro j n hn
    have hn' : (s.goOn i .replaced).stage j = .checked n := hn
    obtain ⟨hne, ht⟩ := huse j n (by rw [hn', Stage.name?])
    have hfile := hother n hne ht
    simp only [hfile]
    exact hgone.checked j n hn'
  case files =>
    intro j
    by_cases hj : target j = target i
    · have hfile : (s.replace target i name).files (target j) = some (content i) := by
        rw [hj]
        exact (Function.update_self ..).trans (h.checked i name hi)
      simp only [hfile]
      simp [Store.replace, Store.expected, hj]
    · have hfile := hother (target j) (h.apart i name hname j) hj
      simp only [hfile]
      rw [h.files j]
      simp [Store.replace, Store.expected, Ne.symm hj]

end Store.Orderly

/-- **A step keeps order** when a stream that breaks off leaves an empty file. -/
theorem Store.Orderly.step (h : s.Orderly target content isEmpty first)
    {step : WriterStep ι ν φ} (hd : step.Documented target s)
    (hbreak : BreaksOffEmpty isEmpty s step)
    (hs : step.exec target content isEmpty s = some s') :
    s'.Orderly target content isEmpty first := by
  unfold WriterStep.exec at hs
  cases step with
  | create i name =>
    simp only at hs
    split at hs
    · rename_i hi
      obtain rfl := Option.some.inj hs
      obtain ⟨hapart, hfree⟩ := hd
      refine (h.goOn i (fun n hn => ?_) (by simp) (by simp)).put
        (i := i) (Function.update_self ..) none
      obtain rfl := Option.some.inj hn
      exact ⟨hapart, fun j _ => hfree j⟩
    · obtain rfl := Option.some.inj hs
      exact h.goOn i (by simp [Stage.name?]) (by simp) (by simp)
    · cases hs
  | write i part =>
    simp only at hs
    split at hs
    · rename_i name hi
      obtain rfl := Option.some.inj hs
      exact h.put hi _
    · cases hs
  | close i whole =>
    simp only at hs
    split at hs
    · rename_i name hi
      obtain rfl := Option.some.inj hs
      have hown := h.own (show (s.stage i).name? = some name by rw [hi, Stage.name?])
      cases whole with
      | true =>
        -- everything has reached the file
        refine (h.put hi (some (content i))).goOn i
          (fun n hn => ?_) (fun n hn => ?_) (by simp)
        · obtain rfl := Option.some.inj hn
          exact hown
        · obtain rfl := Stage.closed.inj hn
          exact .inl (Function.update_self ..)
      | false =>
        refine h.goOn i (fun n hn => ?_) (fun n hn => ?_) (by simp)
        · obtain rfl := Option.some.inj hn
          exact hown
        · obtain rfl := Stage.closed.inj hn
          exact .inr (hbreak name hi)
    · cases hs
  | throw i =>
    simp only at hs
    split at hs
    · obtain rfl := Option.some.inj hs
      exact h.goOn i (by simp [Stage.name?]) (by simp) (by simp)
    · cases hs
  | check i =>
    simp only at hs
    split at hs
    · rename_i name hi
      obtain rfl := Option.some.inj hs
      have hown := h.own (show (s.stage i).name? = some name by rw [hi, Stage.name?])
      split
      · exact h.goOn i (by simp [Stage.name?]) (by simp) (by simp)
      · rename_i hnonempty
        refine h.goOn i (fun n hn => ?_) (by simp) fun n hn => ?_
        · obtain rfl := Option.some.inj hn
          exact hown
        · obtain rfl := Stage.checked.inj hn
          exact (h.closed i name hi).resolve_right hnonempty
    · cases hs
  | rename i done =>
    simp only at hs
    split at hs
    · rename_i name hi
      obtain rfl := Option.some.inj hs
      cases done with
      | true => exact h.replace hi
      | false => exact h.goOn i (by simp [Stage.name?]) (by simp) (by simp)
    · cases hs

/-- **Replacement.** After every run of any number of writers whose streams leave an empty file when
they break off, each file that is replaced holds the whole content of the writer that replaced it
last, or what it held at first. -/
theorem steps_replaced {steps : List (WriterStep ι ν φ)}
    (hinit : (replacing target content isEmpty).init s)
    (hs : (replacing target content isEmpty).Steps (BreaksOffEmpty isEmpty) s steps s') (i : ι) :
    s'.files (target i) = s'.expected target content s.files (target i) := by
  have horderly : ∀ {s₁ s₂ : Store ι ν φ} {steps},
      (replacing target content isEmpty).Steps (BreaksOffEmpty isEmpty) s₁ steps s₂ →
      s₁.Orderly target content isEmpty s.files → s₂.Orderly target content isEmpty s.files := by
    intro s₁ s₂ steps hsteps h
    induction hsteps with
    | nil => exact h
    | cons hbreak hstep _ ih => exact ih (h.step hstep.1 hbreak hstep.2)
  exact (horderly hs (Store.orderly_init hinit)).files i

end Invariant

end Foundation
