/- Module: XdPlus/Vulkan/ImageTableInterleaving
   source: vulkan/vkshim.c, shim_CreateImage, shim_DestroyImage, find_img
   digest: Threads that create and destroy images while the driver recycles their handles. -/

import XdPlus.Base.Machine
import XdPlus.Vulkan.ImageTable

set_option autoImplicit false
set_option relaxedAutoImplicit false

namespace XdPlus.Vulkan.ImageTableInterleaving

open XdPlus.Base Common Driver ImageTable

variable {T : Type} [DecidableEq T]

/-- Where a thread is in `shim_CreateImage` or `shim_DestroyImage`. -/
inductive Phase where
  | idle
  | creating (ci : VkImageCreateInfo)
  | created (ci : VkImageCreateInfo) (img : VkImage)
  | destroying (img : VkImage)
  | forgotten (img : VkImage)
  deriving DecidableEq, Repr

/-- What becomes of a handle. From the driver's `vkCreateImage` to its `vkDestroyImage` it is
not free; an image is `ready` from the return of `shim_CreateImage` to the call of
`shim_DestroyImage`, and remembers what it was created with and whether the table was full
then. -/
inductive Stage where
  | free
  | scratch
  | made
  | ready (ci : VkImageCreateInfo) (full : Bool)
  | leaving (ci : VkImageCreateInfo) (full : Bool)
  | gone
  deriving DecidableEq, Repr

structure State (T : Type) where
  table : ImgTable
  phase : T → Phase
  stage : VkImage → Stage

inductive Action (T : Type) where
  | callCreate (t : T) (ci : VkImageCreateInfo)
  | driverCreate (t : T) (out : Option VkImage)
  | remember (t : T)
  | callDestroy (t : T) (img : VkImage)
  | forget (t : T)
  | driverDestroy (t : T)
  | scratchCreate (img : VkImage)
  | scratchDestroy (img : VkImage)

def State.setPhase (s : State T) (t : T) (phase : Phase) : State T :=
  { s with phase := Function.update s.phase t phase }

def State.setStage (s : State T) (img : VkImage) (stage : Stage) : State T :=
  { s with stage := Function.update s.stage img stage }

/-- Every slot is used. -/
def tableFull (t : ImgTable) : Bool := (firstIndex fun i => !(t i).used).isNone

/-- The driver gives out any handle that is free. The application destroys an image that is
ready, or the null handle, which the driver ignores. -/
inductive Step : State T → Action T → State T → Prop
  | callCreate {s : State T} {t : T} {ci : VkImageCreateInfo} : s.phase t = .idle →
      Step s (.callCreate t ci) (s.setPhase t (.creating ci))
  | createFails {s : State T} {t : T} {ci : VkImageCreateInfo} : s.phase t = .creating ci →
      Step s (.driverCreate t none) (s.setPhase t .idle)
  | createDone {s : State T} {t : T} {ci : VkImageCreateInfo} {img : VkImage} :
      s.phase t = .creating ci → img ≠ 0 → s.stage img = .free →
      Step s (.driverCreate t (some img)) ((s.setPhase t (.created ci img)).setStage img .made)
  | remember {s : State T} {t : T} {ci : VkImageCreateInfo} {img : VkImage} :
      s.phase t = .created ci img →
      Step s (.remember t)
        { (s.setPhase t .idle).setStage img (.ready ci (tableFull s.table)) with
          table := rememberImg s.table img ci.format ci.extent ci.arrayLayers }
  | callDestroyNull {s : State T} {t : T} : s.phase t = .idle →
      Step s (.callDestroy t 0) (s.setPhase t (.destroying 0))
  | callDestroy {s : State T} {t : T} {img : VkImage} {ci : VkImageCreateInfo} {full : Bool} :
      s.phase t = .idle → s.stage img = .ready ci full →
      Step s (.callDestroy t img)
        ((s.setPhase t (.destroying img)).setStage img (.leaving ci full))
  | forget {s : State T} {t : T} {img : VkImage} : s.phase t = .destroying img →
      Step s (.forget t)
        { (if img = 0 then s else s.setStage img .gone).setPhase t (.forgotten img) with
          table := forgetImg s.table img }
  | driverDestroy {s : State T} {t : T} {img : VkImage} : s.phase t = .forgotten img →
      Step s (.driverDestroy t)
        ((if img = 0 then s else s.setStage img .free).setPhase t .idle)
  | scratchCreate {s : State T} {img : VkImage} : img ≠ 0 → s.stage img = .free →
      Step s (.scratchCreate img) (s.setStage img .scratch)
  | scratchDestroy {s : State T} {img : VkImage} : s.stage img = .scratch →
      Step s (.scratchDestroy img) (s.setStage img .free)

/-- No image and nothing under way. -/
def State.start : State T := ⟨ImgTable.zero, fun _ => .idle, fun _ => .free⟩

def machine (T : Type) [DecidableEq T] : Machine (State T) (Action T) where
  init s := s = State.start
  step := Step

/-- A ready image is found with what it was created with, or not at all if there was no room
for it; and no handle has two entries. -/
structure Truthful (s : State T) : Prop where
  found : ∀ img ci full, s.stage img = .ready ci full →
    (∃ entry, findImg s.table img = some entry ∧ entry.format = ci.format ∧
        entry.extent = ci.extent ∧ entry.arrayLayers = ci.arrayLayers) ∨
      (findImg s.table img = none ∧ full = true)
  single : ∀ i j, (s.table i).used = true → (s.table j).used = true →
    (s.table i).img = (s.table j).img → i = j

section Threads

variable {phase : T → Phase} {stage : VkImage → Stage} {t : T} {img : VkImage}

/-- The handle a thread is between two steps with. -/
def Phase.handle : Phase → Option VkImage
  | .created _ img => some img
  | .destroying img | .forgotten img => if img = 0 then none else some img
  | .idle | .creating _ => none

/-- The stage of a handle is the one its thread has brought it to. -/
def Phase.Fits (stage : VkImage → Stage) : Phase → Prop
  | .created _ img => stage img = .made
  | .destroying img => img = 0 ∨ ∃ ci full, stage img = .leaving ci full
  | .forgotten img => img = 0 ∨ stage img = .gone
  | .idle | .creating _ => True

/-- Every thread fits, and no two are at one handle. -/
private structure Threads (phase : T → Phase) (stage : VkImage → Stage) : Prop where
  fits : ∀ t, (phase t).Fits stage
  apart : ∀ t u img, (phase t).handle = some img → (phase u).handle = some img → t = u

omit [DecidableEq T] in
private theorem Threads.restage (threads : Threads phase stage)
    (nobody : ∀ u, (phase u).handle ≠ some img) (st : Stage) :
    Threads phase (Function.update stage img st) := by
  refine ⟨fun u => ?_, threads.apart⟩
  have fits := threads.fits u
  have other := nobody u
  cases at_phase : phase u with
  | idle => trivial
  | creating ci => trivial
  | created ci img' =>
      rw [at_phase] at fits other
      have ne : img' ≠ img := fun same => other (by rw [same]; rfl)
      exact (Function.update_of_ne ne _ _).trans fits
  | destroying img' =>
      rw [at_phase] at fits other
      by_cases null : img' = 0
      · exact .inl null
      · have ne : img' ≠ img := fun same => other (by simp [Phase.handle, null, ← same])
        obtain ⟨ci, full, leaving⟩ := fits.resolve_left null
        exact .inr ⟨ci, full, (Function.update_of_ne ne _ _).trans leaving⟩
  | forgotten img' =>
      rw [at_phase] at fits other
      by_cases null : img' = 0
      · exact .inl null
      · have ne : img' ≠ img := fun same => other (by simp [Phase.handle, null, ← same])
        exact .inr ((Function.update_of_ne ne _ _).trans (fits.resolve_left null))

private theorem Threads.rephase (threads : Threads phase stage) {ph : Phase}
    (fits : ph.Fits stage)
    (alone : ∀ img, ph.handle = some img → ∀ u, u ≠ t → (phase u).handle ≠ some img) :
    Threads (Function.update phase t ph) stage := by
  constructor
  · intro u
    rcases eq_or_ne u t with rfl | ne
    · rw [Function.update_self]
      exact fits
    · rw [Function.update_of_ne ne]
      exact threads.fits u
  · intro u v img first second
    rcases eq_or_ne u t with rfl | ne_u
    · rcases eq_or_ne v u with rfl | ne_v
      · rfl
      · rw [Function.update_self] at first
        rw [Function.update_of_ne ne_v] at second
        exact (alone img first v ne_v second).elim
    · rcases eq_or_ne v t with rfl | ne_v
      · rw [Function.update_of_ne ne_u] at first
        rw [Function.update_self] at second
        exact (alone img second u ne_u first).elim
      · rw [Function.update_of_ne ne_u] at first
        rw [Function.update_of_ne ne_v] at second
        exact threads.apart u v img first second

private theorem Threads.rest (threads : Threads phase stage) :
    Threads (Function.update phase t .idle) stage :=
  threads.rephase trivial fun _ none_there => by cases none_there

omit [DecidableEq T] in
private theorem Threads.nobody (threads : Threads phase stage) (img : VkImage)
    (unmade : stage img ≠ .made) (staying : ∀ ci full, stage img ≠ .leaving ci full)
    (there : stage img ≠ .gone) (u : T) : (phase u).handle ≠ some img := by
  intro holds
  have fits := threads.fits u
  cases at_phase : phase u with
  | idle => simp [at_phase, Phase.handle] at holds
  | creating ci => simp [at_phase, Phase.handle] at holds
  | created ci img' =>
      rw [at_phase] at fits holds
      obtain rfl : img' = img := Option.some.inj holds
      exact unmade fits
  | destroying img' =>
      rw [at_phase] at fits holds
      by_cases null : img' = 0
      · simp [Phase.handle, null] at holds
      · obtain rfl : img' = img := by simpa [Phase.handle, null] using holds
        obtain ⟨ci, full, leaving⟩ := fits.resolve_left null
        exact staying ci full leaving
  | forgotten img' =>
      rw [at_phase] at fits holds
      by_cases null : img' = 0
      · simp [Phase.handle, null] at holds
      · obtain rfl : img' = img := by simpa [Phase.handle, null] using holds
        exact there (fits.resolve_left null)

private theorem Threads.nobody_left (threads : Threads phase stage)
    (holds : (phase t).handle = some img) (u : T) :
    (Function.update phase t .idle u).handle ≠ some img := by
  rcases eq_or_ne u t with rfl | ne
  · rw [Function.update_self]
    simp [Phase.handle]
  · rw [Function.update_of_ne ne]
    exact fun other => ne (threads.apart u t img other holds)

end Threads

section Table

variable {table : ImgTable} {stage : VkImage → Stage} {img : VkImage}

/-- What an image the table may have an entry of was created with. -/
def Stage.known : Stage → Option (VkImageCreateInfo × Bool)
  | .ready ci full | .leaving ci full => some (ci, full)
  | .free | .scratch | .made | .gone => none

def Describes (entry : ImgInfo) (ci : VkImageCreateInfo) : Prop :=
  entry.format = ci.format ∧ entry.extent = ci.extent ∧ entry.arrayLayers = ci.arrayLayers

/-- The table has an entry of each known image that there was room for, and no other. -/
private structure Tabled (table : ImgTable) (stage : VkImage → Stage) : Prop where
  entries : ∀ i, (table i).used = true → ∃ ci full,
    (stage (table i).img).known = some (ci, full) ∧ Describes (table i) ci
  kept : ∀ img ci, (stage img).known = some (ci, false) →
    ∃ i, (table i).used = true ∧ (table i).img = img
  single : ∀ i j, (table i).used = true → (table j).used = true →
    (table i).img = (table j).img → i = j

private theorem Tabled.absent (tabled : Tabled table stage) (unknown : (stage img).known = none)
    {i : Fin imgTableMax} (used : (table i).used = true) : (table i).img ≠ img := by
  rintro rfl
  obtain ⟨ci, full, known, -⟩ := tabled.entries i used
  rw [unknown] at known
  cases known

private theorem Tabled.restage (tabled : Tabled table stage) {st : Stage}
    (same : st.known = (stage img).known) : Tabled table (Function.update stage img st) := by
  have known : ∀ x, (Function.update stage img st x).known = (stage x).known := by
    intro x
    rcases eq_or_ne x img with rfl | ne
    · rw [Function.update_self, same]
    · rw [Function.update_of_ne ne]
  refine ⟨fun i used => ?_, fun x ci here => ?_, tabled.single⟩
  · rw [known]
    exact tabled.entries i used
  · rw [known] at here
    exact tabled.kept x ci here

private theorem Tabled.remember (tabled : Tabled table stage)
    (unknown : (stage img).known = none) (ci : VkImageCreateInfo) :
    Tabled (rememberImg table img ci.format ci.extent ci.arrayLayers)
      (Function.update stage img (.ready ci (tableFull table))) := by
  have elsewhere : ∀ i, (table i).used = true →
      Function.update stage img (.ready ci (tableFull table)) (table i).img =
        stage (table i).img :=
    fun i used => Function.update_of_ne (tabled.absent unknown used) _ _
  unfold rememberImg tableFull at *
  cases slot : firstIndex fun i => !(table i).used with
  | none =>
      simp only [slot] at elsewhere ⊢
      refine ⟨fun i used => ?_, fun x ci' here => ?_, tabled.single⟩
      · rw [elsewhere i used]
        exact tabled.entries i used
      · rcases eq_or_ne x img with rfl | ne
        · rw [Function.update_self] at here
          cases here
        · rw [Function.update_of_ne ne] at here
          exact tabled.kept x ci' here
  | some k =>
      have vacant : (table k).used = false := by simpa using firstIndex_holds slot
      have other : ∀ i, (table i).used = true → i ≠ k := by
        rintro i used rfl
        rw [vacant] at used
        cases used
      simp only [slot] at elsewhere ⊢
      refine ⟨fun i used => ?_, fun x ci' here => ?_, fun i j used_i used_j same => ?_⟩
      · rcases eq_or_ne i k with rfl | ne
        · rw [Function.update_self]
          exact ⟨ci, false, by rw [Function.update_self]; rfl, rfl, rfl, rfl⟩
        · rw [Function.update_of_ne ne] at used ⊢
          rw [elsewhere i used]
          exact tabled.entries i used
      · rcases eq_or_ne x img with rfl | ne
        · exact ⟨k, by rw [Function.update_self], by rw [Function.update_self]⟩
        · rw [Function.update_of_ne ne] at here
          obtain ⟨i, used, is_x⟩ := tabled.kept x ci' here
          refine ⟨i, ?_⟩
          rw [Function.update_of_ne (other i used)]
          exact ⟨used, is_x⟩
      · rcases eq_or_ne i k with rfl | ne_i
        · rcases eq_or_ne j i with rfl | ne_j
          · rfl
          · rw [Function.update_of_ne ne_j] at used_j same
            rw [Function.update_self] at same
            exact (tabled.absent unknown used_j same.symm).elim
        · rw [Function.update_of_ne ne_i] at used_i same
          rcases eq_or_ne j k with rfl | ne_j
          · rw [Function.update_self] at same
            exact (tabled.absent unknown used_i same).elim
          · rw [Function.update_of_ne ne_j] at used_j same
            exact tabled.single i j used_i used_j same

private theorem forgetImg_used (tabled : Tabled table stage) (i : Fin imgTableMax) :
    (forgetImg table img i).used = true ↔ (table i).used = true ∧ (table i).img ≠ img := by
  unfold forgetImg
  cases found : firstIndex fun i => (table i).used && (table i).img == img with
  | none =>
      have miss := firstIndex_eq_none.mp found i
      simp only [Bool.and_eq_false_iff, beq_eq_false_iff_ne] at miss
      constructor
      · intro used
        exact ⟨used, miss.resolve_left fun unused => by rw [used] at unused; cases unused⟩
      · rintro ⟨used, -⟩
        exact used
  | some k =>
      have hit : (table k).used = true ∧ (table k).img = img := by
        simpa using firstIndex_holds found
      rcases eq_or_ne i k with rfl | ne
      · simp [hit.2]
      · simp only [Function.update_of_ne ne]
        constructor
        · intro used
          exact ⟨used, fun same => ne (tabled.single i k used hit.1 (same.trans hit.2.symm))⟩
        · rintro ⟨used, -⟩
          exact used

private theorem forgetImg_entry {i : Fin imgTableMax} (used : (forgetImg table img i).used = true) :
    forgetImg table img i = table i := by
  unfold forgetImg at used ⊢
  cases found : firstIndex fun i => (table i).used && (table i).img == img with
  | none => rfl
  | some k =>
      simp only [found] at used
      rcases eq_or_ne i k with rfl | ne
      · rw [Function.update_self] at used
        cases used
      · exact Function.update_of_ne ne _ _

private theorem Tabled.forget (tabled : Tabled table stage) :
    Tabled (forgetImg table img) (Function.update stage img .gone) := by
  refine ⟨fun i used => ?_, fun x ci here => ?_, fun i j used_i used_j same => ?_⟩
  · obtain ⟨before, other⟩ := (forgetImg_used tabled i).mp used
    rw [forgetImg_entry used, Function.update_of_ne other]
    exact tabled.entries i before
  · rcases eq_or_ne x img with rfl | ne
    · rw [Function.update_self] at here
      cases here
    · rw [Function.update_of_ne ne] at here
      obtain ⟨i, used, rfl⟩ := tabled.kept x ci here
      have still : (forgetImg table img i).used = true := (forgetImg_used tabled i).mpr ⟨used, ne⟩
      exact ⟨i, still, congrArg ImgInfo.img (forgetImg_entry still)⟩
  · rw [forgetImg_entry used_i, forgetImg_entry used_j] at same
    exact tabled.single i j ((forgetImg_used tabled i).mp used_i).1
      ((forgetImg_used tabled j).mp used_j).1 same

private theorem Tabled.forget_unknown (tabled : Tabled table stage)
    (unknown : (stage img).known = none) : forgetImg table img = table := by
  unfold forgetImg
  cases found : firstIndex fun i => (table i).used && (table i).img == img with
  | none => rfl
  | some k =>
      have hit : (table k).used = true ∧ (table k).img = img := by
        simpa using firstIndex_holds found
      exact (tabled.absent unknown hit.1 hit.2).elim

end Table

section Runs

variable {s s' : State T} {a : Action T}

private structure Inv (s : State T) : Prop where
  threads : Threads s.phase s.stage
  tabled : Tabled s.table s.stage
  null : s.stage 0 = .free

omit [DecidableEq T] in
private theorem inv_start : Inv (State.start : State T) := by
  refine ⟨⟨fun _ => trivial, ?_⟩, ⟨?_, ?_, ?_⟩, rfl⟩
  · intro t u img holds
    cases holds
  · intro i used
    cases used
  · intro img ci known
    cases known
  · intro i j used
    cases used

private theorem null_update {stage : VkImage → Stage} (null : stage 0 = .free) {img : VkImage}
    (ne : img ≠ 0) (st : Stage) : Function.update stage img st 0 = .free :=
  (Function.update_of_ne ne.symm _ _).trans null

-- One case per place where a thread can be interrupted; in each the threads and the table are
-- taken care of separately.
private theorem inv_step (inv : Inv s) (step : Step s a s') : Inv s' := by
  obtain ⟨threads, tabled, null⟩ := inv
  cases step with
  | callCreate idle =>
      refine ⟨threads.rephase trivial ?_, tabled, null⟩
      intro img holds
      cases holds
  | createFails creating => exact ⟨threads.rest, tabled, null⟩
  | @createDone t ci img creating ne free =>
      have nobody := threads.nobody img (by simp [free]) (by simp [free]) (by simp [free])
      refine ⟨?_, tabled.restage (by rw [free]; rfl), null_update null ne _⟩
      refine (threads.restage nobody .made).rephase (Function.update_self ..) ?_
      intro img' holds u _
      obtain rfl : img = img' := Option.some.inj holds
      exact nobody u
  | @remember t ci img created =>
      have made : s.stage img = .made := by
        have fits := threads.fits t
        rwa [created] at fits
      have ne : img ≠ 0 := by
        rintro rfl
        rw [null] at made
        cases made
      have left : ∀ u, (Function.update s.phase t .idle u).handle ≠ some img :=
        threads.nobody_left (by rw [created]; rfl)
      have unknown : (s.stage img).known = none := by rw [made]; rfl
      have remembered := tabled.remember unknown ci
      refine ⟨threads.rest.restage left _, ?_, null_update null ne _⟩
      dsimp only [State.setPhase, State.setStage]
      exact remembered
  | callDestroyNull idle =>
      refine ⟨threads.rephase (.inl rfl) ?_, tabled, null⟩
      intro img holds
      cases holds
  | @callDestroy t img ci full idle ready =>
      have nobody := threads.nobody img (by simp [ready]) (by simp [ready]) (by simp [ready])
      have ne : img ≠ 0 := by
        rintro rfl
        rw [null] at ready
        cases ready
      refine ⟨?_, tabled.restage (by rw [ready]; rfl), null_update null ne _⟩
      refine (threads.restage nobody (.leaving ci full)).rephase
        (.inr ⟨ci, full, Function.update_self ..⟩) ?_
      intro img' holds u _
      obtain rfl : img = img' := by simpa [Phase.handle, ne] using holds
      exact nobody u
  | @forget t img destroying =>
      by_cases zero : img = 0
      · subst zero
        have unknown : (s.stage 0).known = none := by rw [null]; rfl
        have unchanged := tabled.forget_unknown unknown
        simp only [if_true, unchanged]
        refine ⟨threads.rephase (.inl rfl) ?_, tabled, null⟩
        intro img holds
        cases holds
      · have left : ∀ u, (Function.update s.phase t .idle u).handle ≠ some img :=
          threads.nobody_left (by rw [destroying]; simp [Phase.handle, zero])
        simp only [zero, if_false]
        have alone : ∀ img', (Phase.forgotten img).handle = some img' → ∀ u, u ≠ t →
            (Function.update s.phase t .idle u).handle ≠ some img' := by
          intro img' holds u _
          obtain rfl : img = img' := by simpa [Phase.handle, zero] using holds
          exact left u
        have fits : (Phase.forgotten img).Fits (Function.update s.stage img .gone) :=
          .inr (Function.update_self ..)
        have again := (threads.rest.restage left .gone).rephase fits alone
        rw [Function.update_idem] at again
        refine ⟨again, ?_, null_update null zero _⟩
        dsimp only [State.setPhase, State.setStage]
        exact tabled.forget
  | @driverDestroy t img forgotten =>
      by_cases zero : img = 0
      · simp only [zero, if_true]
        exact ⟨threads.rest, tabled, null⟩
      · have gone : s.stage img = .gone := by
          have fits := threads.fits t
          rw [forgotten] at fits
          exact fits.resolve_left zero
        have left : ∀ u, (Function.update s.phase t .idle u).handle ≠ some img :=
          threads.nobody_left (by rw [forgotten]; simp [Phase.handle, zero])
        simp only [zero, if_false]
        exact ⟨threads.rest.restage left .free, tabled.restage (by rw [gone]; rfl),
          null_update null zero _⟩
  | @scratchCreate img ne free =>
      have nobody := threads.nobody img (by simp [free]) (by simp [free]) (by simp [free])
      exact ⟨threads.restage nobody .scratch, tabled.restage (by rw [free]; rfl),
        null_update null ne _⟩
  | @scratchDestroy img scratch =>
      have nobody := threads.nobody img (by simp [scratch]) (by simp [scratch])
        (by simp [scratch])
      have ne : img ≠ 0 := by
        rintro rfl
        rw [null] at scratch
        cases scratch
      exact ⟨threads.restage nobody .free, tabled.restage (by rw [scratch]; rfl),
        null_update null ne _⟩

omit [DecidableEq T] in
private theorem findImg_entry (tabled : Tabled s.table s.stage) {img : VkImage}
    {i : Fin imgTableMax} (used : (s.table i).used = true) (is_img : (s.table i).img = img) :
    findImg s.table img = some (s.table i) := by
  have first : firstIndex (fun j => (s.table j).used && (s.table j).img == img) = some i := by
    refine firstIndex_unique (by simp [used, is_img]) fun j hit => ?_
    obtain ⟨used_j, is_img_j⟩ : (s.table j).used = true ∧ (s.table j).img = img := by
      simpa using hit
    exact tabled.single j i used_j used (is_img_j.trans is_img.symm)
  rw [findImg, first, Option.map_some]

omit [DecidableEq T] in
private theorem Inv.truthful (inv : Inv s) : Truthful s := by
  refine ⟨fun img ci full ready => ?_, inv.tabled.single⟩
  have known : (s.stage img).known = some (ci, full) := by rw [ready]; rfl
  by_cases there : ∃ i, (s.table i).used = true ∧ (s.table i).img = img
  · obtain ⟨i, used, is_img⟩ := there
    obtain ⟨ci', full', known', describes⟩ := inv.tabled.entries i used
    rw [is_img, known] at known'
    obtain ⟨rfl, rfl⟩ := Prod.mk.inj (Option.some.inj known')
    exact .inl ⟨_, findImg_entry inv.tabled used is_img, describes⟩
  · refine .inr ⟨?_, ?_⟩
    · have missing : firstIndex (fun i => (s.table i).used && (s.table i).img == img) = none := by
        rw [firstIndex_eq_none]
        intro i
        by_contra hit
        exact there ⟨i, by simpa using hit⟩
      rw [findImg, missing, Option.map_none]
    · cases full with
      | true => rfl
      | false => exact (there (inv.tabled.kept img ci known)).elim

/-- In every interleaving a lookup of a ready image gives its own metadata, or nothing where
the table was full when the image was created, and no handle has two entries. -/
theorem images_truthful (s : State T) (reach : (machine T).Reachable s) : Truthful s := by
  have inv : Inv s := by
    refine reach.invariant ?_ ?_
    · rintro s rfl
      exact inv_start
    · intro s a s' _ inv step
      exact inv_step inv step
  exact inv.truthful

/-- A square image with one layer. -/
def squareImage (format : VkFormat) (side : Nat) : VkImageCreateInfo :=
  ⟨.type2D, format, ⟨side, side, 1⟩, 1, 1, 6, .undefined⟩

private theorem stepped (reach : (machine T).Reachable s) (step : Step s a s') :
    (machine T).Reachable s' := reach.next step

/-- One thread's handle 9 becomes another thread's while the first creates its next image. -/
theorem images_truthful_recycled : ∃ s : State Bool, (machine Bool).Reachable s ∧
    s.phase true = .created (squareImage 37 64) 10 ∧
    ∃ entry, findImg s.table 9 = some entry ∧ entry.format = 44 ∧ entry.extent = ⟨8, 8, 1⟩ := by
  have start : (machine Bool).Reachable State.start := .start rfl
  have first := stepped start (a := .callCreate true (squareImage 37 64)) (.callCreate rfl)
  have made := stepped first (a := .driverCreate true (some 9)) (.createDone rfl (by decide) rfl)
  have ready := stepped made (a := .remember true) (.remember rfl)
  have second := stepped ready (a := .callCreate false (squareImage 44 8)) (.callCreate rfl)
  have leaving := stepped second (a := .callDestroy true 9) (.callDestroy rfl rfl)
  have gone := stepped leaving (a := .forget true) (.forget rfl)
  have free := stepped gone (a := .driverDestroy true) (.driverDestroy rfl)
  have recycled := stepped free (a := .driverCreate false (some 9))
    (.createDone rfl (by decide) rfl)
  have third := stepped recycled (a := .callCreate true (squareImage 37 64)) (.callCreate rfl)
  have tenth := stepped third (a := .driverCreate true (some 10)) (.createDone rfl (by decide) rfl)
  have reach := stepped tenth (a := .remember false) (.remember rfl)
  have known := (images_truthful _ reach).found 9 (squareImage 44 8) false (by decide +kernel)
  rcases known with ⟨entry, found, format, extent, -⟩ | ⟨-, absurd_full⟩
  · exact ⟨_, reach, rfl, entry, found, format, extent⟩
  · cases absurd_full

end Runs

end XdPlus.Vulkan.ImageTableInterleaving
