import FuzzHarness.Handshake
import FuzzHarness.Proofs.Kernel.Environment
import FuzzHarness.Proofs.Redirection.Steps

/-!
Announcements of deferred start-up. Exactly the names that no environment can keep are refused, so
that no call on the environment panics, and a refusal changes nothing. After announcements under any
names, in any order, a variable has the value of the last one under its name.
-/

namespace FuzzHarness.Deferral

/-- A name that is empty, or has an equals sign or a NUL in it. -/
def Malformed (name : String) : Prop :=
  name = "" ∨ '=' ∈ name.toList ∨ '\x00' ∈ name.toList

instance : DecidablePred Malformed :=
  fun _ => inferInstanceAs (Decidable (_ ∨ _ ∨ _))

def value (d : Deferral) : Option Bytes :=
  if d.deferred then some (Bytes.ofString "1") else none

def answer (d : Deferral) : Except HarnessError Unit :=
  if Malformed d.variableName then
    .error (.environment "encode" d.variableName (.bare .invalidInput)) else .ok ()

/-- What an announcement makes of an environment, by a call on it that may panic. -/
def announce? (d : Deferral) (env : Environment) : Option Environment :=
  if d.deferred then env.set? (Bytes.ofString d.variableName) announcement
  else env.unset? (Bytes.ofString d.variableName)

/-- An announcement that may end in the panic of its call; then nothing comes of it. -/
def prepare? (d : Deferral) (w : World) : Option (Except HarnessError Unit × World) :=
  if validName d.variableName then do
    let environment ← d.announce? w.kernel.environment
    let kernel := { w.kernel with environment }
    return (.ok (), { w with kernel }.log (.deferredMode d.deferred))
  else return (.error (.environment "encode" d.variableName (.bare .invalidInput)), w)

/-- Announcements one after the other, with the answer to each. -/
def prepareAll (ds : List Deferral) : StateM World (List (Except HarnessError Unit)) :=
  ds.mapM prepare

def prepareAll? (ds : List Deferral) : StateT World Option (List (Except HarnessError Unit)) :=
  ds.mapM prepare?

/-- One announcement: it is refused and nothing changes, or its variable has the new value and every
other variable the one from before. -/
inductive Announced (d : Deferral) (w : World) : Except HarnessError Unit × World → Prop
  | refused : Malformed d.variableName →
      Announced d w (.error (.environment "encode" d.variableName (.bare .invalidInput)), w)
  | made (w' : World) : ¬Malformed d.variableName →
      w'.kernel.environment.get? =
        Function.update w.kernel.environment.get? (Bytes.ofString d.variableName) d.value →
      Announced d w (.ok (), w')

/-- Many announcements: a variable has the value of the last one under its name, and without any the
value from before. A malformed name names no variable. -/
structure Reflects (ds : List Deferral) (before after : Environment) : Prop where
  last : ∀ front d back, ds = front ++ d :: back → ¬Malformed d.variableName →
    (∀ e ∈ back, e.variableName ≠ d.variableName) →
      after.get? (Bytes.ofString d.variableName) = d.value
  others : ∀ name, (∀ d ∈ ds, ¬Malformed d.variableName → Bytes.ofString d.variableName ≠ name) →
    after.get? name = before.get? name

variable {d : Deferral} {ds : List Deferral} {before after : Environment}

theorem validName_iff {name : String} : validName name = true ↔ ¬Malformed name := by
  have bad : (name.toList.any fun c => c = '=' || c = '\x00') = true ↔ '=' ∈ name.toList ∨
      '\x00' ∈ name.toList := by
    simp [List.any_eq_true, and_or_left, exists_or]
  have empty : name.toList.isEmpty = true ↔ name = "" := by
    simp
  rw [validName, Bool.and_eq_true, Bool.not_eq_true', Bool.not_eq_true', ← Bool.not_eq_true,
    ← Bool.not_eq_true, bad, empty, ← not_or, Malformed]

theorem isName_iff {name : String} : Environment.IsName (Bytes.ofString name) ↔
    ¬Malformed name := by
  rw [Environment.isName_ofString, Malformed, not_or, not_or]

theorem get?_announce (d : Deferral) (env : Environment) :
    (d.announce env).get? = Function.update env.get? (Bytes.ofString d.variableName) d.value := by
  unfold announce value
  split
  · exact Environment.get?_set env _ _
  · exact Environment.get?_unset env _

theorem announce?_eq (d : Deferral) (env : Environment) :
    d.announce? env = if Malformed d.variableName then none else some (d.announce env) := by
  have no_nul : 0 ∉ announcement := by decide
  by_cases malformed : Malformed d.variableName
  · have no_name : ¬Environment.IsName (Bytes.ofString d.variableName) := fun name =>
      isName_iff.mp name malformed
    simp [announce?, Environment.set?, Environment.unset?, malformed, no_name]
  · have name := isName_iff.mpr malformed
    unfold announce? announce
    split <;> simp [Environment.set?, Environment.unset?, name, no_nul]

theorem prepare_of_malformed (malformed : Malformed d.variableName) (w : World) :
    d.prepare w = (.error (.environment "encode" d.variableName (.bare .invalidInput)), w) :=
  if_neg fun valid => validName_iff.mp valid malformed

theorem prepare_of_not_malformed (wellFormed : ¬Malformed d.variableName) (w : World) :
    d.prepare w = (.ok (),
      { w with kernel := { w.kernel with environment := d.announce w.kernel.environment } }.log
      (.deferredMode d.deferred)) :=
  if_pos (validName_iff.mpr wellFormed)

theorem announced_prepare (d : Deferral) (w : World) : Announced d w (d.prepare w) := by
  by_cases malformed : Malformed d.variableName
  · rw [prepare_of_malformed malformed]
    exact .refused malformed
  · rw [prepare_of_not_malformed malformed]
    refine .made _ malformed ?_
    rw [World.environment_log]
    exact get?_announce d _

theorem prepare?_eq (d : Deferral) (w : World) : d.prepare? w = some (d.prepare w) := by
  by_cases malformed : Malformed d.variableName
  · rw [prepare_of_malformed malformed]
    exact if_neg fun valid => validName_iff.mp valid malformed
  · rw [prepare_of_not_malformed malformed, prepare?, if_pos (validName_iff.mpr malformed),
      announce?_eq, if_neg malformed]
    rfl

theorem Announced.answer_eq {w : World} {result : Except HarnessError Unit × World}
    (h : Announced d w result) :
    result.1 = d.answer := by
  cases h with
  | refused malformed => exact (if_pos malformed).symm
  | made _ wellFormed => exact (if_neg wellFormed).symm

theorem Reflects.refl (env : Environment) : Reflects [] env env where
  last := fun front d back split => by simp at split
  others := fun _ _ => rfl

theorem Announced.reflects {w : World} {result : Except HarnessError Unit × World}
    (h : Announced d w result) :
    Reflects [d] w.kernel.environment result.2.kernel.environment := by
  refine ⟨fun front e back split wellFormed _ => ?_, fun name other => ?_⟩
  · have only : e ∈ [d] := by simp [split]
    obtain rfl := List.mem_singleton.mp only
    cases h with
    | refused malformed => exact absurd malformed wellFormed
    | made w' _ same => rw [same, Function.update_self]
  · cases h with
    | refused => rfl
    | made w' wellFormed same =>
        rw [same, Function.update_of_ne (other d (List.mem_singleton_self d) wellFormed).symm]

theorem Reflects.append {es : List Deferral} {middle : Environment} (h : Reflects ds before middle)
    (h' : Reflects es middle after) : Reflects (ds ++ es) before after := by
  refine ⟨fun front d back split wellFormed unnamed => ?_, fun name unnamed => ?_⟩
  · rcases List.append_eq_append_iff.mp split with ⟨rest, rfl, later⟩ | ⟨rest, rfl, later⟩
    · exact h'.last rest d back later wellFormed unnamed
    · cases rest with
      | nil => exact h'.last [] d back later.symm wellFormed unnamed
      | cons e rest =>
          obtain ⟨rfl, rfl⟩ := List.cons.inj later
          rw [h'.others]
          · exact h.last front d rest rfl wellFormed fun e member =>
              unnamed e (List.mem_append_left es member)
          · intro e member _ same
            exact unnamed e (List.mem_append_right rest member) (Bytes.ofString_injective same)
  · rw [h'.others name fun d member => unnamed d (List.mem_append_right ds member)]
    exact h.others name fun d member => unnamed d (List.mem_append_left es member)

theorem prepareAll_cons (d : Deferral) (ds : List Deferral) (w : World) :
    prepareAll (d :: ds) w =
      ((d.prepare w).1 :: (prepareAll ds (d.prepare w).2).1,
        (prepareAll ds (d.prepare w).2).2) := by
  simp only [prepareAll, List.mapM_cons]
  rfl

theorem prepareAll_reflects (ds : List Deferral) (w : World) :
    Reflects ds w.kernel.environment (prepareAll ds w).2.kernel.environment := by
  induction ds generalizing w with
  | nil => exact .refl _
  | cons d ds ih =>
      rw [prepareAll_cons]
      exact (announced_prepare d w).reflects.append (ih (d.prepare w).2)

theorem answers_prepareAll (ds : List Deferral) (w : World) :
    (prepareAll ds w).1 = ds.map answer := by
  induction ds generalizing w with
  | nil => rfl
  | cons d ds ih =>
      rw [prepareAll_cons, List.map_cons, ih]
      exact congrArg (· :: _) (announced_prepare d w).answer_eq

theorem prepareAll?_eq (ds : List Deferral) (w : World) :
    prepareAll? ds w = some (prepareAll ds w) := by
  induction ds generalizing w with
  | nil => rfl
  | cons d ds ih =>
      have first : prepareAll? (d :: ds) w = (d.prepare? w).bind fun result =>
          (prepareAll? ds result.2).bind fun results =>
              some (result.1 :: results.1, results.2) := by
        simp only [prepareAll?, List.mapM_cons]
        rfl
      rw [first, prepare?_eq, Option.bind_some, ih, prepareAll_cons]
      rfl

end FuzzHarness.Deferral
