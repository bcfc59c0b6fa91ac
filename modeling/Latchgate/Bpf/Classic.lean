import Mathlib.Data.List.Basic

/-! Classic BPF: filters that load words, mask, compare, jump ahead and return. -/

namespace Bpf

/-- One instruction as the kernel reads it. -/
structure SockFilter where
  code : UInt16
  jt : UInt8
  jf : UInt8
  k : UInt32
  deriving DecidableEq

def bpfLd : UInt16 := 0x00
def bpfW : UInt16 := 0x00
def bpfAbs : UInt16 := 0x20
def bpfAlu : UInt16 := 0x04
def bpfAnd : UInt16 := 0x50
def bpfJmp : UInt16 := 0x05
def bpfJeq : UInt16 := 0x10
def bpfJge : UInt16 := 0x30
def bpfK : UInt16 := 0x00
def bpfRet : UInt16 := 0x06

def stmt (code : UInt16) (k : UInt32) : SockFilter :=
  ⟨code, 0, 0, k⟩

def jump (code : UInt16) (k : UInt32) (jt jf : UInt8) : SockFilter :=
  ⟨code, jt, jf, k⟩

inductive Op where
  | load (offset : UInt32)
  | mask (bits : UInt32)
  | branch (test : UInt32 → Bool) (jt jf : Nat)
  | ret (value : UInt32)

/-- What an instruction does; nothing under any other code. -/
def SockFilter.op (f : SockFilter) : Option Op :=
  if f.code = bpfLd ||| bpfW ||| bpfAbs then some (.load f.k)
  else if f.code = bpfAlu ||| bpfAnd ||| bpfK then some (.mask f.k)
  else if f.code = bpfJmp ||| bpfJeq ||| bpfK then some (.branch (fun a => a = f.k) f.jt.toNat f.jf.toNat)
  else if f.code = bpfJmp ||| bpfJge ||| bpfK then some (.branch (fun a => f.k ≤ a) f.jt.toNat f.jf.toNat)
  else if f.code = bpfRet ||| bpfK then some (.ret f.k)
  else none

section Run
variable (word : UInt32 → Option UInt32)

/-- The accumulator over the rest of a program, so many instructions ahead.
Nothing where the program ends without a return, or loads outside the data. -/
def exec : List SockFilter → Nat → UInt32 → Option UInt32
  | [], _, _ => none
  | _ :: rest, skip + 1, a => exec rest skip a
  | f :: rest, 0, a =>
    match f.op with
    | some (.load offset) => (word offset).bind fun loaded => exec rest 0 loaded
    | some (.mask bits) => exec rest 0 (a &&& bits)
    | some (.branch test jt jf) => exec rest (if test a then jt else jf) a
    | some (.ret value) => some value
    | none => none

def run (program : List SockFilter) : Option UInt32 :=
  exec word program 0 0

end Run

/-- Where an instruction may go on, counted from the one after it. -/
def Op.next : Op → List Nat
  | .load _ | .mask _ => [0]
  | .branch _ jt jf => [jt, jf]
  | .ret _ => []

/-- Every instruction is known, loads inside the data, and goes on inside the
program, whichever way it branches. -/
def closed (loadable : UInt32 → Bool) : List SockFilter → Bool
  | [] => true
  | f :: rest =>
    (match f.op with
      | some (.load offset) => loadable offset && decide (0 < rest.length)
      | some op => op.next.all fun n => n < rest.length
      | none => false) && closed loadable rest

section Run
variable {word : UInt32 → Option UInt32}

@[simp] theorem exec_skip (f : SockFilter) (rest : List SockFilter) (skip : Nat) (a : UInt32) :
    exec word (f :: rest) (skip + 1) a = exec word rest skip a :=
  rfl

@[simp] theorem exec_load (offset : UInt32) (rest : List SockFilter) (a : UInt32) :
    exec word (stmt (bpfLd ||| bpfW ||| bpfAbs) offset :: rest) 0 a = (word offset).bind fun loaded => exec word rest 0 loaded :=
  rfl

@[simp] theorem exec_mask (bits : UInt32) (rest : List SockFilter) (a : UInt32) :
    exec word (stmt (bpfAlu ||| bpfAnd ||| bpfK) bits :: rest) 0 a = exec word rest 0 (a &&& bits) :=
  rfl

@[simp] theorem exec_jeq (value : UInt32) (jt jf : UInt8) (rest : List SockFilter) (a : UInt32) :
    exec word (jump (bpfJmp ||| bpfJeq ||| bpfK) value jt jf :: rest) 0 a =
      exec word rest (if a = value then jt.toNat else jf.toNat) a := by
  change exec word rest (if decide (a = value) = true then jt.toNat else jf.toNat) a = _
  simp only [decide_eq_true_eq]

@[simp] theorem exec_jge (value : UInt32) (jt jf : UInt8) (rest : List SockFilter) (a : UInt32) :
    exec word (jump (bpfJmp ||| bpfJge ||| bpfK) value jt jf :: rest) 0 a =
      exec word rest (if value ≤ a then jt.toNat else jf.toNat) a := by
  change exec word rest (if decide (value ≤ a) = true then jt.toNat else jf.toNat) a = _
  simp only [decide_eq_true_eq]

@[simp] theorem exec_ret (value : UInt32) (rest : List SockFilter) (a : UInt32) :
    exec word (stmt (bpfRet ||| bpfK) value :: rest) 0 a = some value :=
  rfl

/-- A comparison over a return: the value where they are equal, else the rest. -/
theorem exec_deny (value verdict : UInt32) (rest : List SockFilter) (a : UInt32) :
    exec word (jump (bpfJmp ||| bpfJeq ||| bpfK) value 0 1 :: stmt (bpfRet ||| bpfK) verdict :: rest) 0 a =
      if a = value then some verdict else exec word rest 0 a := by
  rw [exec_jeq]
  split_ifs with same
  · exact exec_ret verdict rest a
  · exact exec_skip _ rest 0 a

/-- So many comparisons: the verdict for every listed value. -/
theorem exec_denyAll (values : List UInt32) (verdict : UInt32) (rest : List SockFilter) (a : UInt32) :
    exec word (values.flatMap (fun value => [jump (bpfJmp ||| bpfJeq ||| bpfK) value 0 1, stmt (bpfRet ||| bpfK) verdict]) ++ rest) 0 a =
      if a ∈ values then some verdict else exec word rest 0 a := by
  induction values with
  | nil => rw [List.flatMap_nil, List.nil_append, if_neg List.not_mem_nil]
  | cons value values ih =>
    rw [List.flatMap_cons, List.append_assoc, List.cons_append, List.cons_append, List.nil_append, exec_deny, ih]
    by_cases same : a = value
    · rw [if_pos same, if_pos (List.mem_cons.mpr (.inl same))]
    · rw [if_neg same]
      exact if_congr (by rw [List.mem_cons, or_iff_right same]) rfl rfl

/-- A closed program ends in a return, wherever in it the run stands. -/
theorem exec_of_closed {loadable : UInt32 → Bool} (loads : ∀ offset, loadable offset = true → (word offset).isSome = true)
    {program : List SockFilter} (inside : closed loadable program = true) {skip : Nat} (within : skip < program.length)
    (a : UInt32) : ∃ value, exec word program skip a = some value := by
  induction program generalizing skip a with
  | nil => exact absurd within (Nat.not_lt_zero skip)
  | cons f rest ih =>
    rw [closed, Bool.and_eq_true] at inside
    obtain ⟨here, inside⟩ := inside
    cases skip with
    | succ skip => exact ih inside (Nat.lt_of_succ_lt_succ within) a
    | zero =>
      cases known : f.op with
      | none => simp only [known, Bool.false_eq_true] at here
      | some op =>
        cases op with
        | load offset =>
          simp only [known, Bool.and_eq_true, decide_eq_true_eq] at here
          obtain ⟨loaded, read⟩ := Option.isSome_iff_exists.mp (loads offset here.1)
          simpa only [exec, known, read, Option.bind_some] using ih inside here.2 loaded
        | mask bits =>
          simp only [known, Op.next, List.all_cons, List.all_nil, Bool.and_true, decide_eq_true_eq] at here
          simpa only [exec, known] using ih inside here (a &&& bits)
        | branch test jt jf =>
          simp only [known, Op.next, List.all_cons, List.all_nil, Bool.and_true, Bool.and_eq_true, decide_eq_true_eq] at here
          have target : (if test a then jt else jf) < rest.length := by
            split_ifs
            · exact here.1
            · exact here.2
          simpa only [exec, known] using ih inside target a
        | ret value => exact ⟨value, by simp only [exec, known]⟩

end Run

end Bpf
