import Mathlib.Logic.Function.Basic
import NetConductor.Desktop.Registry
import NetConductor.Semantics.Transition

/-! The script that puts the system proxy in place and takes it away again: what
it leaves in the registry over any sequence of its actions, finished or not. -/
namespace NetConductor
open Transition

/-- The values of the registry key that the script writes. -/
inductive ProxyName where
  | proxyEnable
  | proxyServer
  | proxyOverride
deriving DecidableEq

/-- The three values of the key, each there or not. -/
abbrev ProxyValues : Type := ProxyName → Option RegistryValue

/-- The contents of the backup file. -/
abbrev ProxyBackup : Type := ProxyName → Option RegistryObject

/-- The registry and the file, with what the values were before the first
`enable` since the last `restore` that was completed. -/
structure SystemProxy where
  values : ProxyValues
  backup : Option ProxyBackup
  before : Option ProxyValues

/-- The actions, with how far they get: `enable` fails before there is a backup,
or after so many of its writes; `restore` fails after so many of its writes, or
after it has removed the backup, or it is completed. A write can fail by itself,
and the action with it. -/
inductive ProxyAction where
  | status
  | enable (writes : Option Nat)
  | restore (writes : Nat)
  | restoreUnfinished
  | restored

namespace SystemProxy

def names : List ProxyName := [.proxyEnable, .proxyServer, .proxyOverride]

def server : String := "127.0.0.1:17891"

/-- The exceptions from the proxy: those there are, and the script's own. -/
def exceptions (old : Option RegistryObject) : String :=
  let listed := (old.map (·.split ';')).getD [] ++ ["<local>", "127.*", "10.77.*"]
  ";".intercalate (listed.filter (· ≠ "")).eraseDups

variable (c : Conversions)

/-- What `status` answers: whether the proxy is in place, and whether there is a
backup. -/
def status (w : SystemProxy) : Bool × Bool :=
  let current n := ((w.values n).map (·.read c)).getD .null
  ((current .proxyEnable).eq "1" && (current .proxyServer).eq server, w.backup.isSome)

/-- What the backup keeps of a value. -/
def saved (value : Option RegistryValue) : Option RegistryObject := value.map (·.read c)

/-- What the backup keeps of the values. -/
def save (values : ProxyValues) : ProxyBackup := fun n => saved c (values n)

/-- What `enable` writes in the place of a value. -/
def enabled (n : ProxyName) (current : Option RegistryValue) : Option (Option RegistryValue) :=
  match n with
  | .proxyEnable => some (some (.dword 1))
  | .proxyServer => (RegistryValue.write c current (.text server)).map some
  | .proxyOverride => (RegistryValue.write c current (.text (exceptions (saved c current)))).map some

/-- What `restore` makes of a value: the saved one is written, and one that was
not there is removed. -/
def putBack (saved : Option RegistryObject) (current : Option RegistryValue) :
    Option (Option RegistryValue) :=
  match saved with
  | none => some none
  | some o => (RegistryValue.write c current o).map some

/-- Some of the values are changed, one after the other, as far as the writes go;
with whether all of them were changed. -/
def change (f : ProxyName → Option RegistryValue → Option (Option RegistryValue)) :
    List ProxyName → ProxyValues → ProxyValues × Bool
  | [], values => (values, true)
  | n :: rest, values =>
      match f n (values n) with
      | none => (values, false)
      | some v => change f rest (Function.update values n v)

/-- The writes of `restore`. -/
def putBackAll (backup : ProxyBackup) (ns : List ProxyName) (values : ProxyValues) :
    ProxyValues × Bool :=
  change (fun n => putBack c (backup n)) ns values

def step (w : SystemProxy) : ProxyAction → Option SystemProxy
  | .status => some w
  | .enable none => some { w with before := some (w.before.getD w.values) }
  | .enable (some writes) => some
      { values := (change (enabled c) (names.take writes) w.values).1
        backup := some (w.backup.getD (save c w.values))
        before := some (w.before.getD w.values) }
  | .restore writes =>
      match w.backup with
      | none => some w
      | some backup => some { w with values := (putBackAll c backup (names.take writes) w.values).1 }
  | .restoreUnfinished =>
      match w.backup with
      | none => none
      | some backup =>
          let (values, done) := putBackAll c backup names w.values
          if done then some { w with values, backup := none } else none
  | .restored =>
      match w.backup with
      | none => none
      | some backup =>
          let (values, done) := putBackAll c backup names w.values
          if done then some { values, backup := none, before := none } else none

/-- Every run that begins with some values and no backup. -/
def system (original : ProxyValues) : System SystemProxy ProxyAction where
  initial w := w = ⟨original, none, none⟩
  step w l w' := w.step c l = some w'

/-- In every run that begins with the values `original`, a `restore` that is
completed leaves what was there before the first `enable`. -/
def Undoes (original : ProxyValues) : Prop :=
  ∀ labels w w', Runs (system c original) ⟨original, none, none⟩ labels w →
    w.step c .restored = some w' → w.before = some w'.values

/-! ### Which values come back -/

/-- `ProxyEnable`, which `enable` makes a number: it comes back when it was one of
32 bits or was not there, and in its own kind when it cannot be a number of 32
bits and has the kind that its object is given. -/
def ComesBack : Option RegistryValue → Prop
  | none | some (.dword _) => True
  | some (.sz s) => c.toDword (.text s) = none
  | some (.qword n) => 2 ^ 32 ≤ n.toNat ∧ n.toNat < 2 ^ 63
  | _ => False

/-- The other two, which `enable` makes texts: they come back when they were of a
kind of text and nothing in them was expanded, or were not there. -/
def TextComesBack : Option RegistryValue → Prop
  | none | some (.sz _) | some (.multiSz _) => True
  | some (.expandSz s) => c.expand s = s
  | _ => False

/-- An array that is no number cannot be written over one. -/
def Stuck : Option RegistryValue → Prop
  | some (.multiSz texts) => c.toDword (.texts texts) = none
  | some (.binary bytes) | some (.untyped bytes) | some (.bigEndian bytes) =>
      c.toDword (.bytes bytes) = none
  | _ => False

/-- What is read from the value cannot be written over the value itself. -/
def Unwritable : Option RegistryValue → Prop
  | some (.untyped _) | some (.bigEndian _) => True
  | _ => False

/-- What is read from the value gives it again when it is written over it. -/
def Rewritable : Option RegistryValue → Prop
  | some (.expandSz s) => c.expand s = s
  | some (.untyped _) | some (.bigEndian _) | some (.other _ _) => False
  | _ => True

/-- When every completed `restore` undoes what was enabled. In all the cases but
the last no `restore` is completed after `enable` has written a value. -/
inductive Restorable (original : ProxyValues) : Prop
  | untyped (n : ProxyName) (text : n ≠ .proxyEnable) (bytes : List UInt8)
      (kind : original n = some (.untyped bytes))
  | unwritable (stuck : Stuck c (original .proxyEnable)) (n : ProxyName)
      (never : Unwritable (original n))
  | rewritable (stuck : Stuck c (original .proxyEnable)) (all : ∀ n, Rewritable c (original n))
  | comesBack (enable : ComesBack c (original .proxyEnable))
      (texts : ∀ n, n ≠ .proxyEnable → TextComesBack c (original n))

variable {c}

/-- A number keeps the kind of a value of 32 bits if it fits. -/
theorem write_dword (k : UInt32) (n : UInt64) :
    RegistryValue.write c (some (.dword k)) (.number n) =
      if n.toNat < 2 ^ 32 then some (.dword n.toUInt32) else (RegistryObject.number n).natural := by
  simp only [RegistryValue.write, c.dword_number]
  split <;> rfl

theorem write_dword_self (k n : UInt32) :
    RegistryValue.write c (some (.dword k)) (.number n.toUInt64) = some (.dword n) := by
  have hFits : n.toUInt64.toNat < 2 ^ 32 := by
    rw [UInt32.toNat_toUInt64]
    exact n.toNat_lt
  rw [write_dword, if_pos hFits, UInt32.toUInt32_toUInt64]

/-- What is saved fails to be written over a number exactly when it is such an array. -/
theorem putBack_over_number (v : Option RegistryValue) (k : UInt32) :
    putBack c (saved c v) (some (.dword k)) = none ↔ Stuck c v := by
  rcases v with _ | v
  · simp [putBack, saved, Stuck]
  · cases v with
    | dword => simp [putBack, saved, Stuck, RegistryValue.read, write_dword_self]
    | qword n =>
        simp only [putBack, saved, Stuck, RegistryValue.read, write_dword, Option.map_some]
        split <;> simp [RegistryObject.natural]
    | _ =>
        simp [putBack, saved, Stuck, RegistryValue.read, RegistryValue.write,
          RegistryObject.natural, c.dword_null]

/-- What was saved is put back over a number exactly where it comes back as it was. -/
theorem putBack_over_number_eq (v : Option RegistryValue) (k : UInt32) :
    putBack c (saved c v) (some (.dword k)) = some v ↔ ComesBack c v := by
  rcases v with _ | v
  · simp [putBack, saved, ComesBack]
  · cases v with
    | sz s =>
        cases hNumber : c.toDword (.text s) <;>
          simp [putBack, saved, ComesBack, RegistryValue.read, RegistryValue.write,
            RegistryObject.natural, hNumber]
    | dword => simp [putBack, saved, ComesBack, RegistryValue.read, write_dword_self]
    | qword n =>
        have hBack : putBack c (saved c (some (.qword n))) (some (.dword k)) =
            (if n.toNat < 2 ^ 32 then some (.dword n.toUInt32)
              else (RegistryObject.number n).natural).map some :=
          congrArg (Option.map some) (write_dword (c := c) k n)
        rw [hBack]
        by_cases hSmall : n.toNat < 2 ^ 32
        · have hOut : ¬ComesBack c (some (.qword n)) := fun h => absurd hSmall (Nat.not_lt.mpr h.1)
          rw [if_pos hSmall]
          exact iff_of_false (by simp) hOut
        · have hLarge : ¬n.toNat < 2 ^ 31 := by omega
          rw [if_neg hSmall, RegistryObject.natural, if_neg hLarge]
          by_cases hFits : n.toNat < 2 ^ 63
          · have hIn : ComesBack c (some (.qword n)) := ⟨Nat.not_lt.mp hSmall, hFits⟩
            rw [if_pos hFits]
            exact iff_of_true rfl hIn
          · have hOut : ¬ComesBack c (some (.qword n)) := fun h => hFits h.2
            rw [if_neg hFits]
            exact iff_of_false (by simp) hOut
    | expandSz s =>
        cases hNumber : c.toDword (.text (c.expand s)) <;>
          simp [putBack, saved, ComesBack, RegistryValue.read, RegistryValue.write,
            RegistryObject.natural, hNumber]
    | multiSz l =>
        cases hNumber : c.toDword (.texts l) <;>
          simp [putBack, saved, ComesBack, RegistryValue.read, RegistryValue.write,
            RegistryObject.natural, hNumber]
    | binary b | untyped b | bigEndian b =>
        cases hNumber : c.toDword (.bytes b) <;>
          simp [putBack, saved, ComesBack, RegistryValue.read, RegistryValue.write,
            RegistryObject.natural, hNumber]
    | other =>
        simp [putBack, saved, ComesBack, RegistryValue.read, RegistryValue.write, c.dword_null]

theorem putBack_over_itself (v : Option RegistryValue) :
    putBack c (saved c v) v = none ↔ Unwritable v := by
  rcases v with _ | v
  · simp [putBack, saved, Unwritable]
  · cases v with
    | dword => simp [putBack, saved, Unwritable, RegistryValue.read, write_dword_self]
    | _ =>
        simp [putBack, saved, Unwritable, RegistryValue.read, RegistryValue.write,
          RegistryObject.natural, c.qword_number, c.binary_bytes]

theorem putBack_over_itself_eq (v : Option RegistryValue) :
    putBack c (saved c v) v = some v ↔ Rewritable c v := by
  rcases v with _ | v
  · simp [putBack, saved, Rewritable]
  · cases v with
    | dword => simp [putBack, saved, Rewritable, RegistryValue.read, write_dword_self]
    | _ =>
        simp [putBack, saved, Rewritable, RegistryValue.read, RegistryValue.write,
          RegistryObject.natural, RegistryObject.toTexts, c.qword_number, c.binary_bytes]

/-! ### Writes one after the other -/

section Change

variable {f : ProxyName → Option RegistryValue → Option (Option RegistryValue)}
variable {ns : List ProxyName} {values : ProxyValues}

/-- What every single write keeps is kept, however far the writes go. -/
theorem change_keeps {P : ProxyValues → Prop}
    (hWrite : ∀ n ∈ ns, ∀ values v, P values → f n (values n) = some v →
      P (Function.update values n v)) (h : P values) : P (change f ns values).1 := by
  induction ns generalizing values with
  | nil => exact h
  | cons n rest ih =>
      simp only [change]
      split
      · exact h
      · next v hv =>
          apply ih fun m hm => hWrite m (.tail _ hm)
          exact hWrite n (.head _) values v h hv

theorem change_of_notMem {n : ProxyName} (hn : n ∉ ns) : (change f ns values).1 n = values n := by
  apply change_keeps (P := fun values' => values' n = values n) _ rfl
  intro m hm values' v hSame _
  have hne : n ≠ m := fun heq => hn (heq ▸ hm)
  exact (Function.update_of_ne hne v values').trans hSame

theorem change_cons {n : ProxyName} {rest : List ProxyName} {v : Option RegistryValue}
    (hv : f n (values n) = some v) :
    change f (n :: rest) values = change f rest (Function.update values n v) := by
  simp only [change, hv]

/-- When all the writes are made, each value is what its own write makes of it. -/
theorem change_done (hNodup : ns.Nodup) (hDone : (change f ns values).2 = true) :
    ∀ n ∈ ns, f n (values n) = some ((change f ns values).1 n) := by
  induction ns generalizing values with
  | nil => nofun
  | cons m rest ih =>
      obtain ⟨hm, hRest⟩ := List.nodup_cons.mp hNodup
      rcases hv : f m (values m) with _ | v
      · simp [change, hv] at hDone
      · rw [change_cons hv] at hDone ⊢
        intro n hn
        rcases List.mem_cons.mp hn with rfl | hn
        · rw [hv, change_of_notMem hm, Function.update_self]
        · have hne : n ≠ m := fun heq => hm (heq ▸ hn)
          rw [← ih hRest hDone n hn, Function.update_of_ne hne]

/-- A change goes through the whole list if no name of it fails. -/
theorem change_completes (hNodup : ns.Nodup) (h : ∀ n ∈ ns, ∃ v, f n (values n) = some v) :
    (change f ns values).2 = true := by
  induction ns generalizing values with
  | nil => rfl
  | cons m rest ih =>
      obtain ⟨hm, hRest⟩ := List.nodup_cons.mp hNodup
      obtain ⟨v, hv⟩ := h m (.head _)
      rw [change_cons hv]
      apply ih hRest
      intro n hn
      have hne : n ≠ m := fun heq => hm (heq ▸ hn)
      rw [Function.update_of_ne hne]
      exact h n (.tail _ hn)

theorem names_nodup (k : Nat) : (names.take k).Nodup :=
  List.Nodup.sublist (List.take_sublist k names) (by decide)

theorem mem_names (n : ProxyName) : n ∈ names := by cases n <;> decide

theorem change_all (hDone : (change f names values).2 = true) (n : ProxyName) :
    f n (values n) = some ((change f names values).1 n) :=
  change_done (names_nodup 3) hDone n (mem_names n)

end Change

/-! ### What every run keeps -/

variable {original : ProxyValues} {P : ProxyValues → Prop}

/-- A property of the values that the writes of both actions keep, and from which
a `restore` with all its writes makes the original values again. -/
structure Protects (c : Conversions) (original : ProxyValues) (P : ProxyValues → Prop) : Prop where
  start : P original
  enable : ∀ k values, P values → P (change (enabled c) (names.take k) values).1
  restore : ∀ k values, P values → P (putBackAll c (save c original) (names.take k) values).1
  restored : ∀ values, P values → (putBackAll c (save c original) names values).2 = true →
    (putBackAll c (save c original) names values).1 = original

/-- The values are the original ones, or there is a backup of these. -/
structure Recoverable (c : Conversions) (P : ProxyValues → Prop) (original : ProxyValues)
    (w : SystemProxy) : Prop where
  before : w.before = none ∨ w.before = some original
  unsaved : w.backup = none → w.values = original
  saved : ∀ b, w.backup = some b → w.before = some original ∧ b = save c original ∧ P w.values

variable {w w' : SystemProxy}

theorem Recoverable.started (h : Recoverable c P original w) :
    some (w.before.getD w.values) = some original := by
  rcases hBackup : w.backup with _ | b
  · rcases h.before with hNone | hSome
    · rw [hNone, Option.getD_none, h.unsaved hBackup]
    · rw [hSome, Option.getD_some]
  · rw [(h.saved b hBackup).1, Option.getD_some]

theorem Recoverable.protected (hP : Protects c original P) (h : Recoverable c P original w) :
    P w.values := by
  rcases hBackup : w.backup with _ | b
  · rw [h.unsaved hBackup]
    exact hP.start
  · exact (h.saved b hBackup).2.2

theorem Recoverable.backup (h : Recoverable c P original w) :
    w.backup.getD (save c w.values) = save c original := by
  rcases hBackup : w.backup with _ | b
  · rw [Option.getD_none, h.unsaved hBackup]
  · rw [Option.getD_some, (h.saved b hBackup).2.1]

/-- A `restore` with all its writes needs a backup and gives the original values. -/
theorem Recoverable.restored (hP : Protects c original P) (h : Recoverable c P original w)
    {b : ProxyBackup} (hBackup : w.backup = some b) {values : ProxyValues}
    (hDone : putBackAll c b names w.values = (values, true)) : values = original := by
  obtain ⟨-, rfl, hValues⟩ := h.saved b hBackup
  have hOriginal := hP.restored w.values hValues
  rw [hDone] at hOriginal
  exact hOriginal rfl

/-- Enabling, finished or not, leaves the original in the backup. -/
theorem Recoverable.enable (hP : Protects c original P) (h : Recoverable c P original w)
    {writes : Option Nat} (hStep : w.step c (.enable writes) = some w') :
    Recoverable c P original w' := by
  cases writes with
  | none =>
      cases hStep
      exact ⟨.inr h.started, h.unsaved, fun b hb => ⟨h.started, (h.saved b hb).2⟩⟩
  | some k =>
      cases hStep
      refine ⟨.inr h.started, nofun, fun b hb => ⟨h.started, ?_, ?_⟩⟩
      · rw [← h.backup]
        exact (Option.some.inj hb).symm
      · exact hP.enable k w.values (h.protected hP)

/-- A restore that stops half-way keeps the backup. -/
theorem Recoverable.restore (hP : Protects c original P) (h : Recoverable c P original w)
    {k : Nat} (hStep : w.step c (.restore k) = some w') : Recoverable c P original w' := by
  simp only [SystemProxy.step] at hStep
  split at hStep
  · cases hStep
    exact h
  · next b hBackup =>
      cases hStep
      obtain ⟨hBefore, rfl, hValues⟩ := h.saved b hBackup
      refine ⟨h.before, fun hNone => (by cases hBackup.symm.trans hNone), fun b' hb' => ?_⟩
      cases hBackup.symm.trans hb'
      exact ⟨hBefore, rfl, hP.restore k w.values hValues⟩

/-- The last write of a `restore`, with what the registry was before it. -/
theorem restoreUnfinished_cases (hStep : w.step c .restoreUnfinished = some w') :
    ∃ b, w.backup = some b ∧ putBackAll c b names w.values = (w'.values, true) ∧
      w'.backup = none ∧ w'.before = w.before := by
  simp only [SystemProxy.step] at hStep
  split at hStep
  · cases hStep
  · next b hBackup =>
      obtain ⟨hDone, hStep⟩ := Option.ite_none_right_eq_some.mp hStep
      cases hStep
      exact ⟨b, hBackup, Prod.ext rfl hDone, rfl, rfl⟩

/-- A restore that ends has put every value back and removed the backup. -/
theorem restored_cases (hStep : w.step c .restored = some w') :
    ∃ b, w.backup = some b ∧ putBackAll c b names w.values = (w'.values, true) ∧
      w'.backup = none ∧ w'.before = none := by
  simp only [SystemProxy.step] at hStep
  split at hStep
  · cases hStep
  · next b hBackup =>
      obtain ⟨hDone, hStep⟩ := Option.ite_none_right_eq_some.mp hStep
      cases hStep
      exact ⟨b, hBackup, Prod.ext rfl hDone, rfl, rfl⟩

/-- Every action leaves a state from which the original comes back. -/
theorem Recoverable.step (hP : Protects c original P) (h : Recoverable c P original w)
    {l : ProxyAction} (hStep : w.step c l = some w') : Recoverable c P original w' := by
  cases l with
  | status =>
      cases hStep
      exact h
  | enable writes => exact h.enable hP hStep
  | restore k => exact h.restore hP hStep
  | restoreUnfinished =>
      obtain ⟨b, hBackup, hDone, hGone, hBefore⟩ := restoreUnfinished_cases hStep
      refine ⟨hBefore ▸ h.before, fun _ => h.restored hP hBackup hDone, fun b' hb' => ?_⟩
      cases hGone.symm.trans hb'
  | restored =>
      obtain ⟨b, hBackup, hDone, hGone, hBefore⟩ := restored_cases hStep
      refine ⟨.inl hBefore, fun _ => h.restored hP hBackup hDone, fun b' hb' => ?_⟩
      cases hGone.symm.trans hb'

/-- With such a property, every run keeps the original values recoverable. -/
theorem undoes_of_protects (hP : Protects c original P) : Undoes c original := by
  intro labels w w' run hStep
  have hStart : Recoverable c P original ⟨original, none, none⟩ := ⟨.inl rfl, fun _ => rfl, nofun⟩
  have h := run.preserves (fun _ _ _ hRecoverable hNext => hRecoverable.step hP hNext) hStart
  obtain ⟨b, hBackup, hDone, -, -⟩ := restored_cases hStep
  rw [(h.saved b hBackup).1, h.restored hP hBackup hDone]

/-! ### The condition is enough -/

/-- It is enough that every single write keeps the property. -/
theorem protects_of_writes (hStart : P original)
    (hEnable : ∀ n values v, P values → enabled c n (values n) = some v →
      P (Function.update values n v))
    (hRestore : ∀ n values v, P values → putBack c (save c original n) (values n) = some v →
      P (Function.update values n v))
    (hRestored : ∀ values, P values → (putBackAll c (save c original) names values).2 = true →
      (putBackAll c (save c original) names values).1 = original) : Protects c original P where
  start := hStart
  enable _ _ h := change_keeps (fun n _ => hEnable n) h
  restore _ _ h := change_keeps (fun n _ => hRestore n) h
  restored := hRestored

/-- A value of the kind `REG_NONE` stays as it is, and no `restore` gets past it. -/
theorem protects_untyped {n : ProxyName} (hText : n ≠ .proxyEnable) {bytes : List UInt8}
    (hKind : original n = some (.untyped bytes)) :
    Protects c original fun values => values n = some (.untyped bytes) := by
  have hBack : putBack c (save c original n) (some (.untyped bytes)) = none := by
    simp [save, saved, hKind, putBack, RegistryValue.write]
  have hEnable : enabled c n (some (.untyped bytes)) = none := by
    cases n with
    | proxyEnable => exact absurd rfl hText
    | proxyServer | proxyOverride => rfl
  apply protects_of_writes hKind
  · intro m values v h hv
    by_cases hm : n = m
    · subst hm
      rw [h, hEnable] at hv
      cases hv
    · rwa [Function.update_of_ne hm]
  · intro m values v h hv
    by_cases hm : n = m
    · subst hm
      rw [h, hBack] at hv
      cases hv
    · rwa [Function.update_of_ne hm]
  · intro values h hDone
    have hPut := change_all hDone n
    rw [h, hBack] at hPut
    cases hPut

/-- Once `enable` has written `ProxyEnable`, no `restore` gets past it; before that
the values in `ns` are the original ones. -/
theorem protects_stuck (hStuck : Stuck c (original .proxyEnable)) {ns : List ProxyName}
    (hSame : ∀ n ∈ ns, Unwritable (original n) ∨ Rewritable c (original n))
    (hAll : (∃ n ∈ ns, Unwritable (original n)) ∨ ∀ n, n ∈ ns) :
    Protects c original fun values =>
      (∃ k, values .proxyEnable = some (.dword k)) ∨ ∀ n ∈ ns, values n = original n := by
  have hBlocked : ∀ k, putBack c (save c original .proxyEnable) (some (.dword k)) = none :=
    fun k => (putBack_over_number _ k).mpr hStuck
  refine ⟨.inr fun _ _ => rfl, fun k values h => ?_, fun k values h => ?_, fun values h hDone => ?_⟩
  · rcases k with _ | k
    · exact h
    · refine .inl ?_
      have hFirst : change (enabled c) (names.take (k + 1)) values =
          change (enabled c) ([.proxyServer, .proxyOverride].take k)
            (Function.update values .proxyEnable (some (.dword 1))) := change_cons rfl
      rw [hFirst]
      refine ⟨1, ?_⟩
      rw [change_of_notMem, Function.update_self]
      intro hMem
      simpa using List.mem_of_mem_take hMem
  · rcases h with ⟨k', hk⟩ | hValues
    · refine .inl ?_
      rcases k with _ | k
      · exact ⟨k', hk⟩
      · have hStops : putBackAll c (save c original) (names.take (k + 1)) values = (values, false) := by
          simp only [putBackAll, names, List.take_succ_cons, change, hk, hBlocked]
        exact ⟨k', hStops ▸ hk⟩
    · refine .inr (change_keeps (P := fun values => ∀ n ∈ ns, values n = original n) ?_ hValues)
      intro m _ values v h hv n hn
      by_cases hm : n = m
      · subst hm
        rw [Function.update_self]
        rw [h n hn] at hv
        rcases hSame n hn with hNever | hAgain
        · rw [save, (putBack_over_itself _).mpr hNever] at hv
          cases hv
        · rw [save, (putBack_over_itself_eq _).mpr hAgain] at hv
          exact (Option.some.inj hv).symm
      · rw [Function.update_of_ne hm]
        exact h n hn
  · rcases h with ⟨k, hk⟩ | hValues
    · have hPut := change_all hDone .proxyEnable
      rw [hk, hBlocked] at hPut
      cases hPut
    · rcases hAll with ⟨n, hn, hNever⟩ | hAll
      · have hPut := change_all hDone n
        rw [hValues n hn, save, (putBack_over_itself _).mpr hNever] at hPut
        cases hPut
      · funext n
        have hPut := change_all hDone n
        rw [hValues n (hAll n), save] at hPut
        rcases hSame n (hAll n) with hNever | hAgain
        · rw [(putBack_over_itself _).mpr hNever] at hPut
          cases hPut
        · rw [(putBack_over_itself_eq _).mpr hAgain] at hPut
          exact (Option.some.inj hPut).symm

/-- What the actions can leave in the place of a value. -/
inductive Left (c : Conversions) (n : ProxyName) (original : Option RegistryValue) :
    Option RegistryValue → Prop where
  | untouched : Left c n original original
  | enabled {current v : Option RegistryValue} (prior : Left c n original current)
      (write : enabled c n current = some v) : Left c n original v

/-- Each value comes back from all that can be left in its place. -/
theorem protects_left
    (hBack : ∀ n current, Left c n (original n) current →
      putBack c (saved c (original n)) current = some (original n)) :
    Protects c original fun values => ∀ n, Left c n (original n) (values n) := by
  apply protects_of_writes fun n => .untouched
  · intro m values v h hv n
    by_cases hm : n = m
    · subst hm
      rw [Function.update_self]
      exact .enabled (h n) hv
    · rw [Function.update_of_ne hm]
      exact h n
  · intro m values v h hv n
    by_cases hm : n = m
    · subst hm
      rw [Function.update_self]
      obtain rfl : original n = v := Option.some.inj ((hBack n _ (h n)).symm.trans hv)
      exact .untouched
    · rw [Function.update_of_ne hm]
      exact h n
  · intro values h hDone
    funext n
    exact Option.some.inj ((change_all hDone n).symm.trans (hBack n _ (h n)))

theorem rewritable_of_comesBack {v : Option RegistryValue} (h : ComesBack c v) : Rewritable c v := by
  rcases v with _ | v
  · trivial
  · cases v with
    | sz | dword | qword => trivial
    | expandSz | multiSz | binary | untyped | bigEndian | other => exact h.elim

theorem enable_comesBack {v current : Option RegistryValue} (h : ComesBack c v)
    (hLeft : Left c .proxyEnable v current) : putBack c (saved c v) current = some v := by
  cases hLeft with
  | untouched => exact (putBack_over_itself_eq v).mpr (rewritable_of_comesBack h)
  | enabled prior hWrite =>
      obtain rfl := Option.some.inj hWrite
      exact (putBack_over_number_eq v 1).mpr h

/-- What every text keeps that is written over it. -/
theorem left_keeps {n : ProxyName} (hText : n ≠ .proxyEnable) {v : Option RegistryValue}
    {Q : Option RegistryValue → Prop} (hOriginal : Q v)
    (hWrite : ∀ current s v', Q current → RegistryValue.write c current (.text s) = some v' → Q (some v'))
    {current : Option RegistryValue} (hLeft : Left c n v current) : Q current := by
  induction hLeft with
  | untouched => exact hOriginal
  | enabled prior hEnabled ih =>
      cases n with
      | proxyEnable => exact absurd rfl hText
      | proxyServer | proxyOverride =>
          obtain ⟨v', hv', rfl⟩ := Option.map_eq_some_iff.mp hEnabled
          exact hWrite _ _ _ ih hv'

/-- A text stays of its kind, so what was read is written in the kind it had. -/
theorem text_comesBack {n : ProxyName} (hText : n ≠ .proxyEnable) {v current : Option RegistryValue}
    (h : TextComesBack c v) (hLeft : Left c n v current) :
    putBack c (saved c v) current = some v := by
  rcases v with _ | v
  · rfl
  · cases v with
    | sz s =>
        obtain ⟨t, rfl⟩ : ∃ t, current = some (.sz t) := by
          apply left_keeps hText ⟨s, rfl⟩ _ hLeft
          rintro _ t v' ⟨s', rfl⟩ hWrite
          exact ⟨_, hWrite.symm⟩
        rfl
    | multiSz l =>
        obtain ⟨t, rfl⟩ : ∃ t, current = some (.multiSz t) := by
          apply left_keeps hText ⟨l, rfl⟩ _ hLeft
          rintro _ t v' ⟨s', rfl⟩ hWrite
          exact ⟨_, hWrite.symm⟩
        rfl
    | expandSz s =>
        obtain ⟨t, rfl⟩ : ∃ t, current = some (.expandSz t) := by
          apply left_keeps hText ⟨s, rfl⟩ _ hLeft
          rintro _ t v' ⟨s', rfl⟩ hWrite
          exact ⟨_, hWrite.symm⟩
        have hBack : putBack c (saved c (some (.expandSz s))) (some (.expandSz t)) =
            some (some (.expandSz (c.expand s))) := rfl
        rw [hBack, show c.expand s = s from h]
    | dword | qword | binary | untyped | bigEndian | other => exact h.elim

/-- Where every value comes back, each sequence of actions is undone. -/
theorem undoes_of_restorable (h : Restorable c original) : Undoes c original := by
  cases h with
  | untyped n text bytes kind => exact undoes_of_protects (protects_untyped text kind)
  | unwritable stuck n never =>
      have hSame : ∀ m ∈ [n], Unwritable (original m) ∨ Rewritable c (original m) := by
        intro m hm
        rw [List.mem_singleton.mp hm]
        exact .inl never
      exact undoes_of_protects (protects_stuck stuck hSame (.inl ⟨n, .head _, never⟩))
  | rewritable stuck all =>
      exact undoes_of_protects (protects_stuck stuck (fun n _ => .inr (all n)) (.inr mem_names))
  | comesBack enable texts =>
      apply undoes_of_protects (protects_left _)
      intro n current hLeft
      by_cases hn : n = .proxyEnable
      · subst hn
        exact enable_comesBack enable hLeft
      · exact text_comesBack hn (texts n hn) hLeft

/-! ### The condition is needed -/

/-- After a first `enable` that made so many of its writes, a `restore` that makes
all of its own is completed. -/
theorem restored_of_undoes (h : Undoes c original) (k : Nat)
    (hDone : (putBackAll c (save c original) names
      (change (enabled c) (names.take k) original).1).2 = true) (n : ProxyName) :
    putBack c (saved c (original n)) ((change (enabled c) (names.take k) original).1 n) =
      some (original n) := by
  have hEnabled : (system c original).step ⟨original, none, none⟩ (.enable (some k))
      ⟨(change (enabled c) (names.take k) original).1, some (save c original), some original⟩ := rfl
  have hRestored : SystemProxy.step c
      ⟨(change (enabled c) (names.take k) original).1, some (save c original), some original⟩ .restored =
      some ⟨(putBackAll c (save c original) names (change (enabled c) (names.take k) original).1).1,
        none, none⟩ := by
    simp only [SystemProxy.step]
    rw [if_pos hDone]
  have hSame := Option.some.inj (h _ _ _ (.single hEnabled) hRestored)
  have hPut := change_all hDone n
  exact hPut.trans (congrArg (fun values => some (values n)) hSame.symm)

/-- Texts that differ are joined with a semicolon in between. -/
theorem mem_intercalate {texts : List String} {a b : String} (ha : a ∈ texts) (hb : b ∈ texts)
    (hne : a ≠ b) : ';' ∈ (";".intercalate texts).toList := by
  match texts with
  | [] => cases ha
  | [t] =>
      obtain rfl := List.mem_singleton.mp ha
      exact absurd (List.mem_singleton.mp hb).symm hne
  | t :: u :: rest =>
      rw [String.intercalate_cons_cons]
      simp

/-- The exceptions are no number. -/
theorem mem_exceptions (old : Option RegistryObject) : ';' ∈ (exceptions old).toList := by
  apply mem_intercalate (a := "<local>") (b := "127.*") _ _ (by decide)
  all_goals
    rw [List.mem_eraseDups, List.mem_filter]
    exact ⟨List.mem_append_right _ (by decide), by decide⟩

theorem enabled_text {n : ProxyName} (hText : n ≠ .proxyEnable) (v : Option RegistryValue) :
    ∃ s : String, (':' ∈ s.toList ∨ ';' ∈ s.toList) ∧
      enabled c n v = (RegistryValue.write c v (.text s)).map some := by
  cases n with
  | proxyEnable => exact absurd rfl hText
  | proxyServer => exact ⟨server, .inl (by decide), rfl⟩
  | proxyOverride => exact ⟨_, .inr (mem_exceptions _), rfl⟩

/-- What `enable` leaves of a value that is not of the kind `REG_NONE`. -/
theorem exists_enabled (hUntyped : ∀ n, n ≠ .proxyEnable → ∀ bytes, original n ≠ some (.untyped bytes))
    (n : ProxyName) : ∃ v, enabled c n (original n) = some v := by
  by_cases hn : n = .proxyEnable
  · subst hn
    exact ⟨_, rfl⟩
  · obtain ⟨s, hs, hEnabled⟩ := enabled_text (c := c) hn (original n)
    rw [hEnabled, RegistryValue.write_separated hs (hUntyped n hn)]
    exact ⟨_, rfl⟩

/-- What was enabled is of a kind of text, and takes what was read of the value. -/
theorem exists_putBack {n : ProxyName} (hn : n ≠ .proxyEnable) {v v' : Option RegistryValue}
    (hUntyped : ∀ bytes, v ≠ some (.untyped bytes)) (hEnabled : enabled c n v = some v') :
    ∃ v'', putBack c (saved c v) v' = some v'' := by
  rcases v with _ | v
  · exact ⟨_, rfl⟩
  · obtain ⟨s, hs, hText⟩ := enabled_text (c := c) hn (some v)
    rw [hText, RegistryValue.write_separated hs hUntyped] at hEnabled
    obtain rfl := Option.some.inj hEnabled
    cases v <;> exact ⟨_, rfl⟩

/-- A value that was not of a kind of text comes back as one. -/
theorem textComesBack_of_putBack {n : ProxyName} (hn : n ≠ .proxyEnable) {v v' : Option RegistryValue}
    (hUntyped : ∀ bytes, v ≠ some (.untyped bytes)) (hEnabled : enabled c n v = some v')
    (hBack : putBack c (saved c v) v' = some v) : TextComesBack c v := by
  rcases v with _ | v
  · trivial
  · obtain ⟨s, hs, hText⟩ := enabled_text (c := c) hn (some v)
    rw [hText, RegistryValue.write_separated hs hUntyped] at hEnabled
    obtain rfl := Option.some.inj hEnabled
    cases v with
    | sz | multiSz => trivial
    | expandSz => 
        have hSame := RegistryValue.expandSz.inj (Option.some.inj (Option.some.inj hBack))
        exact hSame
    | dword | qword | binary | untyped | bigEndian | other =>
        cases Option.some.inj (Option.some.inj hBack)

theorem rewritable_of_undoes (h : Undoes c original) (hNever : ∀ n, ¬Unwritable (original n)) (n : ProxyName) :
    Rewritable c (original n) := by
  have hDone : (putBackAll c (save c original) names original).2 = true := by
    apply change_completes (names_nodup 3)
    intro m _
    exact Option.ne_none_iff_exists'.mp fun hNone => hNever m ((putBack_over_itself _).mp hNone)
  exact (putBack_over_itself_eq _).mp (restored_of_undoes h 0 hDone n)

/-- After an `enable` with all its writes a `restore` is completed, unless it is
stuck, and what it makes shows what each value was. -/
theorem comesBack_of_undoes (h : Undoes c original)
    (hUntyped : ∀ n, n ≠ .proxyEnable → ∀ bytes, original n ≠ some (.untyped bytes))
    (hStuck : ¬Stuck c (original .proxyEnable)) :
    ComesBack c (original .proxyEnable) ∧ ∀ n, n ≠ .proxyEnable → TextComesBack c (original n) := by
  have hEnabled : (change (enabled c) names original).2 = true :=
    change_completes (names_nodup 3) fun n _ => exists_enabled hUntyped n
  have hAll := change_all hEnabled
  have hFirst : (change (enabled c) names original).1 .proxyEnable = some (.dword 1) :=
    (Option.some.inj (hAll .proxyEnable)).symm
  have hDone : (putBackAll c (save c original) names (change (enabled c) names original).1).2 = true := by
    apply change_completes (names_nodup 3)
    intro n _
    by_cases hn : n = .proxyEnable
    · subst hn
      rw [hFirst]
      exact Option.ne_none_iff_exists'.mp fun hNone => hStuck ((putBack_over_number _ 1).mp hNone)
    · exact exists_putBack hn (hUntyped n hn) (hAll n)
  have hBack : ∀ n, putBack c (saved c (original n)) ((change (enabled c) names original).1 n) =
      some (original n) := restored_of_undoes h 3 hDone
  constructor
  · have hNumber := hBack .proxyEnable
    rw [hFirst] at hNumber
    exact (putBack_over_number_eq _ 1).mp hNumber
  · intro n hn
    exact textComesBack_of_putBack hn (hUntyped n hn) (hAll n) (hBack n)

/-- Enabling and restoring once shows for each value that it has to come back. -/
theorem restorable_of_undoes (h : Undoes c original) : Restorable c original := by
  by_cases hUntyped : ∃ n bytes, n ≠ .proxyEnable ∧ original n = some (.untyped bytes)
  · obtain ⟨n, bytes, hn, hBytes⟩ := hUntyped
    exact .untyped n hn bytes hBytes
  · by_cases hStuck : Stuck c (original .proxyEnable)
    · by_cases hNever : ∃ n, Unwritable (original n)
      · obtain ⟨n, hn⟩ := hNever
        exact .unwritable hStuck n hn
      · exact .rewritable hStuck (rewritable_of_undoes h fun n hn => hNever ⟨n, hn⟩)
    · have hTexts : ∀ n, n ≠ .proxyEnable → ∀ bytes, original n ≠ some (.untyped bytes) :=
        fun n hn bytes hBytes => hUntyped ⟨n, bytes, hn, hBytes⟩
      obtain ⟨hNumber, hRest⟩ := comesBack_of_undoes h hTexts hStuck
      exact .comesBack hNumber hRest

/-- A completed `restore` of every run undoes what was enabled exactly when the
kinds and the data of the values at the start are ones that come back, or no
`restore` is completed that would have something to undo. -/
theorem restore_undoes_iff (c : Conversions) (original : ProxyValues) :
    Undoes c original ↔ Restorable c original :=
  ⟨restorable_of_undoes, undoes_of_restorable⟩

/-- An exception with a variable. -/
def domainException : ProxyValues
  | .proxyOverride => some (.expandSz "*.%USERDNSDOMAIN%")
  | _ => none

def decimal (s : String) : Option Nat :=
  if s.toList ≠ [] ∧ s.toList.all Char.isDigit then
    some (s.toList.foldl (fun n d => 10 * n + (d.toNat - '0'.toNat)) 0)
  else none

/-- A machine of the domain `EXAMPLE.COM`, where a number is its decimal digits and
an array is none. -/
def domainMember : Conversions where
  expand text := if text = "*.%USERDNSDOMAIN%" then "*.EXAMPLE.COM" else text
  toDword
    | .null => some 0
    | .text s => (decimal s).bind fun n => if n < 2 ^ 32 then some (.ofNat n) else none
    | .number n => if n.toNat < 2 ^ 32 then some n.toUInt32 else none
    | .texts _ | .bytes _ => none
  toQword
    | .null => some 0
    | .text s => (decimal s).bind fun n => if n < 2 ^ 64 then some (.ofNat n) else none
    | .number n => some n
    | .texts _ | .bytes _ => none
  toBinary
    | .null => some []
    | .text s => (decimal s).bind fun n => if n < 2 ^ 8 then some [.ofNat n] else none
    | .number n => if n.toNat < 2 ^ 8 then some [n.toUInt8] else none
    | .texts elements => elements.mapM fun s =>
        (decimal s).bind fun n => if n < 2 ^ 8 then some (.ofNat n) else none
    | .bytes elements => some elements
  dword_null := rfl
  dword_number _ := rfl
  qword_number _ := rfl
  binary_bytes _ := rfl
  separated s hs := by
    have hNone : decimal s = none := by
      apply if_neg
      rintro ⟨-, hDigits⟩
      rw [List.all_eq_true] at hDigits
      rcases hs with hs | hs
      · exact absurd (hDigits _ hs) (by decide)
      · exact absurd (hDigits _ hs) (by decide)
    simp [hNone]

/-- The variable in the exceptions comes back as its contents. -/
theorem variable_not_restored : ¬∀ c original, Undoes c original := by
  intro h
  have hExpanded : domainMember.expand "*.%USERDNSDOMAIN%" = "*.%USERDNSDOMAIN%" := by
    cases restorable_of_undoes (h domainMember domainException) with
    | untyped n text bytes kind => cases n <;> cases kind
    | unwritable stuck => exact stuck.elim
    | rewritable stuck => exact stuck.elim
    | comesBack enable texts => exact texts .proxyOverride (by decide)
  exact absurd hExpanded (by decide)

end SystemProxy
end NetConductor
