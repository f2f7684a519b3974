import Gobble.Context.AccountRules
import Gobble.Lib.Translate
import Gobble.ProgramRuntime.Steps

/-!
# GuardedCode — programs that change accounts through borrows

In the execution model the code of a program may set any account to anything.  What runs in the real
system does not: a builtin or a syscall borrows an account of the instruction that is executed, and
calls a setter.  A store to account data that is mapped into a VM is like a write through
`get_data_mut`: the region is writable only if the data may be changed.  A *guarded* program has setters
as its only way to change an account, besides what is written back from its parameters when it ends.

Guarded programs are not a second kind of program.  Each of their operations is a piece of code over
the operations of the execution model (`codeOfOp`), so a guarded world is a world
(`GuardedWorld.world`), and everything that is known about runs holds for it.
-/

namespace Gobble
namespace ProgramRuntime

open Lib Sbpf Sdk Context

/-! ## Operations -/

/-- What a guarded program can do to the context. -/
inductive GuardedOp where
  | getContext
  | consume (amount : U64)
  | setReturnData (programId : Pubkey) (data : List UInt8)
  /-- Borrow an account of the current instruction and call a setter. -/
  | change (index : IndexOfAccount) (change : AccountChange)
  | replenish (key : Pubkey) (entry : ProgramCacheEntryType)
  | setSyscallContext (syscallContext : SyscallContext)

abbrev GuardedRet : GuardedOp → Type
  | .getContext => InvokeContext
  | .consume _ => Unit
  | .setReturnData _ _ => Unit
  | .change _ _ => Except InstructionError BorrowedInstructionAccount
  | .replenish _ _ => Unit
  | .setSyscallContext _ => Except InstructionError Unit

def InvokeContext.changeAccount (c : InvokeContext) (index : IndexOfAccount)
    (change : AccountChange) :
    Except InstructionError (BorrowedInstructionAccount × TransactionAccounts) := do
  let ic ← c.transactionContext.getCurrentInstructionContext
  let borrowed ← ic.tryBorrowInstructionAccount index
  change.apply borrowed c.transactionContext.accounts

def guardedHandler : EffectTree.Handler GuardedOp GuardedRet Activation
  | .getContext, a => (a.context, a)
  | .consume amount, a => contextHandler (.consume amount) a
  | .setReturnData programId data, a => contextHandler (.setReturnData programId data) a
  | .change index change, a =>
      match a.context.changeAccount index change with
      | .error err => (.error err, a)
      | .ok (borrowed, accounts) =>
          (.ok borrowed, { a with context.transactionContext.accounts := accounts })
  | .replenish key entry, a => contextHandler (.replenish key entry) a
  | .setSyscallContext syscallContext, a => contextHandler (.setSyscallContext syscallContext) a

/-- What code in the VM of a guarded program can do. -/
inductive GuardedVmOp where
  | access (handler : AccessViolationHandler) (op : MemOp)
  | findRegion (vmAddr : U64)
  | replaceRegion (index : Nat) (region : MemoryRegion)
  | context (op : GuardedOp)

abbrev GuardedVmRet : GuardedVmOp → Type
  | .access _ op => MemRet op
  | .findRegion _ => Option (Nat × MemoryRegion)
  | .replaceRegion _ _ => Except EbpfError Unit
  | .context op => GuardedRet op

def guardedVmHandler : EffectTree.Handler GuardedVmOp GuardedVmRet VmActivation
  | .access handler op, v => vmHandler (.access handler op) v
  | .findRegion vmAddr, v => vmHandler (.findRegion vmAddr) v
  | .replaceRegion index region, v => vmHandler (.replaceRegion index region) v
  | .context op, v =>
      let (answer, activation) := guardedHandler op v.activation
      (answer, { v with activation })

def guardedMachine : Machine GuardedOp GuardedRet Activation :=
  ⟨guardedHandler, id, fun _ a => a⟩

def guardedVmMachine : Machine GuardedVmOp GuardedVmRet VmActivation :=
  ⟨guardedVmHandler, VmActivation.activation, fun v activation => { v with activation }⟩

/-! ## The code of the operations -/

/-- Write what a setter returned. -/
def writeChange : Except InstructionError (BorrowedInstructionAccount × TransactionAccounts) →
    EffectTree ContextOp ContextRet (Except InstructionError BorrowedInstructionAccount)
  | .error err => .pure (.error err)
  | .ok (borrowed, accounts) =>
      .perform (.setDeltas accounts.resizeDelta accounts.lamportsDelta) fun _ =>
        .perform (.setAccount borrowed.getIndexInTransaction borrowed.account) fun _ =>
          .pure (.ok borrowed)

def codeOfOp : (op : GuardedOp) → EffectTree ContextOp ContextRet (GuardedRet op)
  | .getContext => .call ContextOp.getContext
  | .consume amount => .call (ContextOp.consume amount)
  | .setReturnData programId data => .call (ContextOp.setReturnData programId data)
  | .change index change => .perform .getContext fun c => writeChange (c.changeAccount index change)
  | .replenish key entry => .call (ContextOp.replenish key entry)
  | .setSyscallContext syscallContext => .call (ContextOp.setSyscallContext syscallContext)

def codeOfVmOp : (op : GuardedVmOp) → EffectTree VmOp VmRet (GuardedVmRet op)
  | .access handler op => .call (VmOp.access handler op)
  | .findRegion vmAddr => .call (VmOp.findRegion vmAddr)
  | .replaceRegion index region => .call (VmOp.replaceRegion index region)
  | .context op => (codeOfOp op).embed .context fun _ answer => answer

/-- A borrow of an account of an instruction. -/
theorem tryBorrowInstructionAccount_ok {ic : InstructionContext} {index : IndexOfAccount}
    {b : BorrowedInstructionAccount} (h : ic.tryBorrowInstructionAccount index = .ok b) :
    b.instructionAccount ∈ ic.instructionAccounts ∧
      b.programKey = ic.transactionContext.accounts.accountKey ic.programAccountIndexInTx ∧
      b.IsOf ic.transactionContext.accounts := by
  unfold InstructionContext.tryBorrowInstructionAccount at h
  split at h
  · cases h
  · rename_i instructionAccount hposition
    split at h
    · cases h
    · rename_i key account haccount
      cases h
      exact ⟨List.mem_of_getElem? hposition, rfl, haccount⟩

/-- What a change of an account consists of. -/
theorem changeAccount_ok {c : InvokeContext} {index : IndexOfAccount} {change : AccountChange}
    {b' : BorrowedInstructionAccount} {accounts : TransactionAccounts}
    (h : c.changeAccount index change = .ok (b', accounts)) :
    ∃ ic b, c.transactionContext.getCurrentInstructionContext = .ok ic ∧
      ic.tryBorrowInstructionAccount index = .ok b ∧
      b.Obeys c.transactionContext.accounts b' accounts := by
  obtain ⟨ic, hic, h⟩ := bind_eq_ok h
  obtain ⟨b, hb, h⟩ := bind_eq_ok h
  have hof := (tryBorrowInstructionAccount_ok hb).2.2
  rw [TransactionContext.getCurrentInstructionContext_eq hic] at hof
  exact ⟨ic, b, hic, hb, AccountChange.apply_obeys hof h⟩

theorem run_codeOfOp (op : GuardedOp) (a : Activation) :
    EffectTree.run contextHandler (codeOfOp op) a = guardedHandler op a := by
  cases op with
  | change index change =>
      unfold codeOfOp guardedHandler
      rw [EffectTree.run_perform]
      dsimp only [contextHandler]
      cases hchange : a.context.changeAccount index change with
      | error err => rfl
      | ok r =>
          obtain ⟨b', accounts⟩ := r
          obtain ⟨ic, b, -, -, hobeys⟩ := changeAccount_ok hchange
          have hindex : b'.getIndexInTransaction = b.getIndexInTransaction := by
            rw [hobeys.borrow]
            rfl
          -- The setter has set the account and the two counters, and nothing else.
          have haccounts : TransactionAccounts.setAccount
              { a.context.transactionContext.accounts with
                resizeDelta := accounts.resizeDelta
                lamportsDelta := accounts.lamportsDelta } b'.getIndexInTransaction b'.account =
              accounts := by
            rw [hindex]
            exact congrArg (fun l => TransactionAccounts.mk l accounts.resizeDelta
              accounts.lamportsDelta) hobeys.written.symm
          simp only [writeChange, EffectTree.run_perform, EffectTree.run_pure, contextHandler,
            haccounts]
  | _ => rfl

/-- Operations on the context, seen from the VM. -/
theorem run_embed_context {α : Type} (t : EffectTree ContextOp ContextRet α) (v : VmActivation) :
    EffectTree.run vmHandler (t.embed .context fun _ answer => answer) v =
      ((EffectTree.run contextHandler t v.activation).1,
        { v with activation := (EffectTree.run contextHandler t v.activation).2 }) :=
  EffectTree.run_embed VmActivation.activation (fun activation v => { v with activation })
    (fun _ _ => rfl) (fun _ _ _ => rfl) (fun _ => rfl) (fun _ _ => rfl) t v

theorem run_codeOfVmOp (op : GuardedVmOp) (v : VmActivation) :
    EffectTree.run vmHandler (codeOfVmOp op) v = guardedVmHandler op v := by
  cases op with
  | context op =>
      unfold codeOfVmOp guardedVmHandler
      rw [run_embed_context, run_codeOfOp]
  | _ => rfl

/-! ## Programs -/

section Programs

variable {Op Op' : Type} {Ret : Op → Type} {Ret' : Op' → Type} {σ α : Type}

/-- An operation of a program, from the code of the operations of the machine. -/
def codeOfProgramOp (f : (op : Op) → EffectTree Op' Ret' (Ret op)) :
    (op : ProgramOp Op Ret) → EffectTree (ProgramOp Op' Ret') ProgramRet (ProgramRet op)
  | .basic op => (f op).embed ProgramOp.basic fun _ answer => answer
  | .invoke instruction signers sync => .call (ProgramOp.invoke instruction signers (sync.translate f))

variable {f : (op : Op) → EffectTree Op' Ret' (Ret op)} {m : Machine Op Ret σ}
  {step : EffectTree.Handler Op' Ret' σ}

theorem exec_codeOfProgramOp (hf : ∀ op s, EffectTree.run step (f op) s = m.step op s)
    (invoke : Invoke) (op : ProgramOp Op Ret) (s : σ) :
    (codeOfProgramOp f op).exec ((Machine.mk step m.activation m.resume).handler invoke) s =
      m.handler invoke op s := by
  cases op with
  | basic op =>
      rw [codeOfProgramOp, EffectTree.exec_embed (h := step) (fun op s => ⟨_, rfl, rfl⟩), hf]
      rfl
  | invoke instruction signers sync =>
      have hsync : ∀ s, EffectTree.run step (sync.translate f) s = sync.run m.step s :=
        EffectTree.run_translate hf sync
      rw [codeOfProgramOp, EffectTree.call, EffectTree.exec_perform]
      unfold Machine.handler
      simp only [hsync]
      exact bind_pure _

/-- A program runs as the code of its operations does. -/
theorem runProgram_translate (hf : ∀ op s, EffectTree.run step (f op) s = m.step op s)
    (invoke : Invoke) (onFailure : BoxedError → α)
    (code : EffectTree (ProgramOp Op Ret) ProgramRet α) (s : σ) :
    (Machine.mk step m.activation m.resume).runProgram invoke onFailure
        (code.translate (codeOfProgramOp f)) s =
      m.runProgram invoke onFailure code s := by
  unfold Machine.runProgram
  rw [EffectTree.exec_translate (exec_codeOfProgramOp hf invoke)]

end Programs

abbrev GuardedNativeCode :=
  EffectTree (ProgramOp GuardedOp GuardedRet) ProgramRet (Except BoxedError U64)
abbrev GuardedVmCode := EffectTree (ProgramOp GuardedVmOp GuardedVmRet) ProgramRet ProgramResult

def GuardedNativeCode.code (native : GuardedNativeCode) : NativeCode :=
  native.translate (codeOfProgramOp codeOfOp)

def GuardedVmCode.code (vm : GuardedVmCode) : VmCode :=
  vm.translate (codeOfProgramOp codeOfVmOp)

theorem runProgram_nativeCode (invoke : Invoke) (onFailure : BoxedError → Except BoxedError U64)
    (native : GuardedNativeCode) (a : Activation) :
    nativeMachine.runProgram invoke onFailure native.code a =
      guardedMachine.runProgram invoke onFailure native a :=
  runProgram_translate (m := guardedMachine) run_codeOfOp invoke onFailure native a

theorem runProgram_vmCode (invoke : Invoke) (onFailure : BoxedError → ProgramResult)
    (vm : GuardedVmCode) (v : VmActivation) :
    vmMachine.runProgram invoke onFailure vm.code v =
      guardedVmMachine.runProgram invoke onFailure vm v :=
  runProgram_translate (m := guardedVmMachine) run_codeOfVmOp invoke onFailure vm v

/-! ## Worlds -/

/-- A verified program whose code is guarded. -/
structure GuardedExecutable where
  config : Config
  sbpfVersion : SBPFVersion
  roRegion : MemoryRegion
  code : U64 → GuardedVmCode

def GuardedExecutable.loaded (exe : GuardedExecutable) : LoadedExecutable :=
  ⟨exe.config, exe.sbpfVersion, exe.roRegion, fun offset => (exe.code offset).code⟩

/-- A world in which all code is guarded. -/
structure GuardedWorld where
  executable : Nat → GuardedExecutable
  native : Nat → GuardedNativeCode
  upgradeableLoader : GuardedNativeCode
  loaderV4 : GuardedNativeCode
  allocate : RuntimeState → HostAllocation
  statusError : U64 → InstructionError

def GuardedWorld.world (w : GuardedWorld) : World :=
  { executable := fun n => (w.executable n).loaded
    native := fun n => (w.native n).code
    upgradeableLoader := w.upgradeableLoader.code
    loaderV4 := w.loaderV4.code
    allocate := w.allocate
    statusError := w.statusError }

end ProgramRuntime
end Gobble
