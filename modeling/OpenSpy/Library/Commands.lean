import Mathlib.Data.List.Induction
import Mathlib.Tactic.Common

/-!
# Programs that issue commands

A client of a store is a program that issues one command after the other and goes on from each
reply. `run` executes a program alone. A `System` has any number of clients whose commands
are executed in any order.

`Along P past program post` says that, whatever the replies are, every command that the program
issues satisfies `P` with the commands and replies before it, and its result satisfies `post`.
`along_bind` is the rule for one program after the other. What holds along a client's program
holds of every move of a system (`next_call_along`).
-/

namespace Commands

variable {Cmd : Type} {Reply : Cmd → Type} {α β σ ι : Type}

/-- A program: a result, or a command and how to go on from its reply. -/
inductive Prog (Reply : Cmd → Type) (α : Type) where
  | done (result : α)
  | call (cmd : Cmd) (rest : Reply cmd → Prog Reply α)

namespace Prog

/-- One program after the other. -/
def bind : Prog Reply α → (α → Prog Reply β) → Prog Reply β
  | done a, f => f a
  | call cmd rest, f => call cmd fun reply => (rest reply).bind f

instance : Monad (Prog Reply) where
  pure := done
  bind := bind

/-- The result of a program that has come to its end. -/
def result? : Prog Reply α → Option α
  | done a => some a
  | call _ _ => none

/-- The program that issues one command. -/
def issue (cmd : Cmd) : Prog Reply (Reply cmd) :=
  call cmd done

end Prog

open Prog

/-- The result of a program that runs alone, and the store behind it. -/
def run (exec : (cmd : Cmd) → σ → Reply cmd × σ) : Prog Reply α → σ → α × σ
  | done a, s => (a, s)
  | call cmd rest, s => run exec (rest (exec cmd s).1) (exec cmd s).2

section Run

variable (exec : (cmd : Cmd) → σ → Reply cmd × σ)

@[simp] theorem run_pure (a : α) (s : σ) : run exec (pure a) s = (a, s) :=
  rfl

@[simp] theorem run_issue (cmd : Cmd) (s : σ) : run exec (issue cmd) s = exec cmd s :=
  rfl

@[simp] theorem run_bind (p : Prog Reply α) (f : α → Prog Reply β) (s : σ) :
    run exec (p >>= f) s = run exec (f (run exec p s).1) (run exec p s).2 := by
  show run exec (p.bind f) s = _
  induction p generalizing s with
  | done a => rfl
  | call cmd rest ih => exact ih _ _

theorem run_ite (c : Prop) [Decidable c] (p q : Prog Reply α) (s : σ) :
    run exec (if c then p else q) s = if c then run exec p s else run exec q s := by
  split <;> rfl

end Run

/-- The commands a program has issued, with their replies. -/
abbrev Past (Reply : Cmd → Type) := List ((cmd : Cmd) × Reply cmd)

/-- Whatever the replies are, the program's commands satisfy `P` and its result `post`. -/
def Along (P : Past Reply → Cmd → Prop) (past : Past Reply) (p : Prog Reply α)
    (post : Past Reply → α → Prop) : Prop :=
  match p with
  | done a => post past a
  | call cmd rest => P past cmd ∧ ∀ reply, Along P (past ++ [⟨cmd, reply⟩]) (rest reply) post

section Along

variable {P : Past Reply → Cmd → Prop} {past : Past Reply} {post post' : Past Reply → α → Prop}

theorem along_pure {a : α} : Along P past (pure a : Prog Reply α) post ↔ post past a :=
  Iff.rfl

theorem along_issue {cmd : Cmd} {post : Past Reply → Reply cmd → Prop} :
    Along P past (issue cmd) post ↔
      P past cmd ∧ ∀ reply, post (past ++ [⟨cmd, reply⟩]) reply :=
  Iff.rfl

/-- One program after the other. -/
theorem along_bind {p : Prog Reply α} {f : α → Prog Reply β} {post : Past Reply → β → Prop} :
    Along P past (p >>= f) post ↔
      Along P past p fun past a => Along P past (f a) post := by
  show Along P past (p.bind f) post ↔ _
  induction p generalizing past with
  | done a => exact Iff.rfl
  | call cmd rest ih => exact and_congr_right fun _ => forall_congr' fun reply => ih reply

/-- A weaker condition on the result. -/
theorem Along.mono {p : Prog Reply α} (h : Along P past p post)
    (hpost : ∀ past a, post past a → post' past a) : Along P past p post' := by
  induction p generalizing past with
  | done a => exact hpost past a h
  | call cmd rest ih => exact ⟨h.1, fun reply => ih reply (h.2 reply)⟩

/-- One program after the other, by what the first one's result satisfies. -/
theorem Along.bind {p : Prog Reply α} {f : α → Prog Reply β} {postBind : Past Reply → β → Prop}
    (hp : Along P past p post) (hf : ∀ past a, post past a → Along P past (f a) postBind) :
    Along P past (p >>= f) postBind :=
  along_bind.mpr (hp.mono hf)

/-- Nothing is asked of the commands or the result. -/
theorem along_true (p : Prog Reply α) : Along (fun _ _ => True) past p fun _ _ => True := by
  induction p generalizing past with
  | done a => trivial
  | call cmd rest ih => exact ⟨trivial, fun reply => ih reply⟩

theorem along_ite {c : Prop} [Decidable c] {p q : Prog Reply α} :
    Along P past (if c then p else q) post ↔
      (c → Along P past p post) ∧ (¬ c → Along P past q post) := by
  split <;> simp [*]

end Along

/-- A client of the store: what it was asked to do, the commands it has issued and what is left
of its program. -/
structure Client (ι : Type) (Reply : Cmd → Type) (α : Type) where
  input : ι
  past : Past Reply
  rest : Prog Reply α

section Runs

variable {μ : Type} {holds : List μ → μ → Prop} {run : List μ}

/-- Something holds of every step of a run and the steps before it. -/
def AtEvery (holds : List μ → μ → Prop) (run : List μ) : Prop :=
  ∀ before next after, run = before ++ next :: after → holds before next

theorem at_every_nil : AtEvery holds [] := by
  intro before next after heq
  simp at heq

theorem at_every_congr {other : List μ → μ → Prop}
    (h : ∀ before next, holds before next ↔ other before next) :
    AtEvery holds run ↔ AtEvery other run :=
  forall₄_congr fun before next _ _ => h before next

/-- At every step of a run means at each index. -/
theorem at_every_iff : AtEvery holds run ↔ ∀ i (h : i < run.length), holds (run.take i) run[i] := by
  constructor
  · intro h i hi
    exact h (run.take i) run[i] (run.drop (i + 1)) (by simp)
  · rintro h before next after rfl
    simpa using h before.length (by simp)

/-- At every step of a run means at every step before the last, and at the last. -/
theorem at_every_append {next : μ} :
    AtEvery holds (run ++ [next]) ↔ AtEvery holds run ∧ holds run next := by
  constructor
  · intro h
    refine ⟨fun before first after heq => ?_, h run next [] rfl⟩
    exact h before first (after ++ [next]) (by simp [heq])
  · rintro ⟨h, hlast⟩ before first after heq
    rcases List.eq_nil_or_concat after with rfl | ⟨rest, last, rfl⟩
    · obtain ⟨rfl, hnext⟩ := List.append_inj' heq rfl
      obtain rfl : next = first := by simpa using hnext
      exact hlast
    · rw [List.concat_eq_append, ← List.cons_append, ← List.append_assoc] at heq
      obtain ⟨hrun, -⟩ := List.append_inj' heq rfl
      exact h before first rest hrun

/-- What holds at every step of a run does so in what the run begins with. -/
theorem AtEvery.of_prefix {before : List μ} (h : AtEvery holds run) (hbefore : before <+: run) :
    AtEvery holds before := by
  obtain ⟨rest, rfl⟩ := hbefore
  intro first next after heq
  exact h first next (after ++ rest) (by simp [heq])

end Runs

/-- A store and its clients. -/
structure System (σ ι : Type) (Reply : Cmd → Type) (α : Type) where
  store : σ
  clients : List (Client ι Reply α)

/-- What happens next: a new client arrives, or a client's next command is executed. -/
inductive Move (ι : Type) where
  | arrive (input : ι)
  | execute (i : Nat)

namespace System

/-- The client's next command is executed. -/
def execute (exec : (cmd : Cmd) → σ → Reply cmd × σ) (sys : System σ ι Reply α) (i : Nat) :
    System σ ι Reply α :=
  match sys.clients[i]? with
  | some ⟨input, past, call cmd rest⟩ =>
      let reply := (exec cmd sys.store).1
      { store := (exec cmd sys.store).2
        clients := sys.clients.set i ⟨input, past ++ [⟨cmd, reply⟩], rest reply⟩ }
  | _ => sys

/-- One move. -/
def move (exec : (cmd : Cmd) → σ → Reply cmd × σ) (program : ι → Prog Reply α)
    (sys : System σ ι Reply α) : Move ι → System σ ι Reply α
  | .arrive input => { sys with clients := sys.clients ++ [⟨input, [], program input⟩] }
  | .execute i => sys.execute exec i

/-- The command that the move executes, with its client. -/
def nextCall (sys : System σ ι Reply α) : Move ι → Option (Client ι Reply α × Cmd)
  | .arrive _ => none
  | .execute i =>
      match sys.clients[i]? with
      | some ⟨input, past, call cmd rest⟩ => some (⟨input, past, call cmd rest⟩, cmd)
      | _ => none

/-- A client has issued the command. -/
def Issued (sys : System σ ι Reply α) (cmd : Cmd) : Prop :=
  ∃ client ∈ sys.clients, ∃ reply, ⟨cmd, reply⟩ ∈ client.past

/-- Every client has come to its end. -/
def Finished (sys : System σ ι Reply α) : Prop :=
  ∀ client ∈ sys.clients, client.rest.result?.isSome

instance (sys : System σ ι Reply α) : Decidable sys.Finished :=
  inferInstanceAs (Decidable (∀ client ∈ sys.clients, client.rest.result?.isSome))

end System

section System

variable {exec : (cmd : Cmd) → σ → Reply cmd × σ} {program : ι → Prog Reply α}
  {sys : System σ ι Reply α}

/-- A run that starts with no clients. -/
def moves (exec : (cmd : Cmd) → σ → Reply cmd × σ) (program : ι → Prog Reply α) (start : σ)
    (run : List (Move ι)) : System σ ι Reply α :=
  run.foldl (System.move exec program) ⟨start, []⟩

/-- One move more. -/
theorem moves_append (start : σ) (run : List (Move ι)) (next : Move ι) :
    moves exec program start (run ++ [next]) =
      (moves exec program start run).move exec program next := by
  simp [moves]

/-- The command of a client that has one is next. -/
theorem next_call_execute {i : Nat} {input : ι} {past : Past Reply} {cmd : Cmd}
    {rest : Reply cmd → Prog Reply α} (h : sys.clients[i]? = some ⟨input, past, call cmd rest⟩) :
    sys.nextCall (.execute i) = some (⟨input, past, call cmd rest⟩, cmd) := by
  simp only [System.nextCall, h]

/-- The client goes on from the reply. -/
theorem execute_client {i : Nat} {input : ι} {past : Past Reply} {cmd : Cmd}
    {rest : Reply cmd → Prog Reply α} (h : sys.clients[i]? = some ⟨input, past, call cmd rest⟩) :
    (sys.move exec program (.execute i)).clients[i]? =
      some ⟨input, past ++ [⟨cmd, (exec cmd sys.store).1⟩], rest (exec cmd sys.store).1⟩ := by
  obtain ⟨hi, -⟩ := List.getElem?_eq_some_iff.mp h
  simp only [System.move, System.execute, h]
  simp [hi]

/-- The command that a move executes acts on the store alone. -/
theorem move_store {next : Move ι} {client : Client ι Reply α} {cmd : Cmd}
    (h : sys.nextCall next = some (client, cmd)) :
    (sys.move exec program next).store = (exec cmd sys.store).2 := by
  cases next with
  | arrive input => cases h
  | execute i =>
      simp only [System.nextCall] at h
      simp only [System.move, System.execute]
      split at h
      · obtain ⟨-, rfl⟩ : _ = client ∧ _ = cmd := by simpa using h
        rfl
      · cases h

/-- A move without a command does not act on the store. -/
theorem move_store_of_no_call {next : Move ι} (h : sys.nextCall next = none) :
    (sys.move exec program next).store = sys.store := by
  cases next with
  | arrive input => rfl
  | execute i =>
      simp only [System.nextCall] at h
      simp only [System.move, System.execute]
      split at h
      · cases h
      · rfl

/-- What a condition says of the clients' next commands, it says in every system that moves
lead to, if it holds along their programs. -/
theorem clients_along {P : ι → Past Reply → Cmd → Prop} {post : ι → Past Reply → α → Prop}
    (h : ∀ input, Along (P input) [] (program input) (post input)) (start : σ)
    (run : List (Move ι)) :
    ∀ client ∈ (moves exec program start run).clients,
      Along (P client.input) client.past client.rest (post client.input) := by
  induction run using List.reverseRecOn with
  | nil =>
      intro client hclient
      cases hclient
  | append_singleton run next ih =>
      rw [moves_append]
      generalize moves exec program start run = sys at ih ⊢
      cases next with
      | arrive input =>
          intro client hclient
          rcases List.mem_append.mp hclient with hold | hnew
          · exact ih client hold
          · rw [List.mem_singleton.mp hnew]
            exact h input
      | execute i =>
          simp only [System.move, System.execute]
          split
          · rename_i input past cmd rest hget
            intro client hclient
            rcases List.mem_or_eq_of_mem_set hclient with hold | hnew
            · exact ih client hold
            -- the client that goes on has one command less to go along
            · rw [hnew]
              exact (ih _ (List.mem_of_getElem? hget)).2 _
          · exact ih

/-- A condition along the programs holds of the command of every move. -/
theorem next_call_along {P : ι → Past Reply → Cmd → Prop} {post : ι → Past Reply → α → Prop}
    (h : ∀ input, Along (P input) [] (program input) (post input)) {start : σ}
    {run : List (Move ι)} {next : Move ι} {client : Client ι Reply α} {cmd : Cmd}
    (hcall : (moves exec program start run).nextCall next = some (client, cmd)) :
    P client.input client.past cmd := by
  cases next with
  | arrive input => cases hcall
  | execute i =>
      simp only [System.nextCall] at hcall
      split at hcall
      · rename_i input past command rest hget
        obtain ⟨rfl, rfl⟩ : _ = client ∧ command = cmd := by simpa using hcall
        exact (clients_along h start run _ (List.mem_of_getElem? hget)).1
      · cases hcall

/-- A move issues the command that it executes, if it executes one, and no other. -/
theorem issued_move {next : Move ι} {cmd : Cmd} :
    (sys.move exec program next).Issued cmd ↔
      sys.Issued cmd ∨ ∃ client, sys.nextCall next = some (client, cmd) := by
  cases next with
  | arrive input =>
      simp [System.Issued, System.move, System.nextCall]
  | execute i =>
      simp only [System.Issued, System.move, System.execute, System.nextCall]
      split
      · rename_i input past command rest hget
        obtain ⟨hi, hclient⟩ := List.getElem?_eq_some_iff.mp hget
        set reply := (exec command sys.store).1
        set following : Client ι Reply α := ⟨input, past ++ [⟨command, reply⟩], rest reply⟩
        have hnew : following ∈ sys.clients.set i following := List.mem_set hi _
        constructor
        · rintro ⟨client, hmem, answer, hpast⟩
          rcases List.mem_or_eq_of_mem_set hmem with hold | rfl
          · exact .inl ⟨client, hold, answer, hpast⟩
          · rcases List.mem_append.mp hpast with hpast | hlast
            · exact .inl ⟨_, List.mem_of_getElem? hget, answer, hpast⟩
            · obtain ⟨rfl, -⟩ : cmd = command ∧ _ := by simpa using hlast
              exact .inr ⟨_, rfl⟩
        · rintro (⟨client, hmem, answer, hpast⟩ | ⟨client, hcall⟩)
          · obtain ⟨j, hj⟩ := List.mem_iff_getElem?.mp hmem
            by_cases hij : i = j
            · subst hij
              obtain rfl : _ = client := Option.some.inj (hget.symm.trans hj)
              exact ⟨following, hnew, answer, List.mem_append_left _ hpast⟩
            · refine ⟨client, List.mem_iff_getElem?.mpr ⟨j, ?_⟩, answer, hpast⟩
              rw [List.getElem?_set_ne hij, hj]
          · obtain ⟨-, rfl⟩ : _ ∧ command = cmd := by simpa using hcall
            exact ⟨following, hnew, reply, by simp [following]⟩
      · simp

/-- The store before each command of a run meets a condition. -/
def EachCommand (exec : (cmd : Cmd) → σ → Reply cmd × σ) (program : ι → Prog Reply α) (start : σ)
    (meets : σ → Cmd → Prop) (run : List (Move ι)) : Prop :=
  AtEvery (fun before next => ∀ client cmd,
    (moves exec program start before).nextCall next = some (client, cmd) →
      meets (moves exec program start before).store cmd) run

/-- If a command keeps something of the store exactly when it meets a condition, it holds in
every state of a run exactly if each command meets the condition. -/
theorem holds_throughout_iff {holds : σ → Prop} {meets : σ → Cmd → Prop} {start : σ}
    {run : List (Move ι)} (hstart : holds start)
    (hexec : ∀ s cmd, holds s → (holds (exec cmd s).2 ↔ meets s cmd)) :
    (∀ before, before <+: run → holds (moves exec program start before).store) ↔
      EachCommand exec program start meets run := by
  have hstep : ∀ (before : List (Move ι)) (next : Move ι),
      holds (moves exec program start before).store →
      (holds (moves exec program start (before ++ [next])).store ↔ ∀ client cmd,
        (moves exec program start before).nextCall next = some (client, cmd) →
          meets (moves exec program start before).store cmd) := by
    intro before next hbefore
    rw [moves_append]
    cases hcall : (moves exec program start before).nextCall next with
    | none =>
        rw [move_store_of_no_call hcall]
        simp [hbefore]
    | some call =>
        obtain ⟨client, cmd⟩ := call
        rw [move_store hcall, hexec _ cmd hbefore]
        simp
  induction run using List.reverseRecOn with
  | nil =>
      refine iff_of_true (fun before hinit => ?_) at_every_nil
      rw [List.prefix_nil.mp hinit]
      exact hstart
  | append_singleton run next ih =>
      rw [EachCommand, at_every_append, ← EachCommand]
      constructor
      · intro hall
        have hbefore : ∀ before, before <+: run → holds (moves exec program start before).store :=
          fun before hinit => hall before (hinit.trans (List.prefix_append run _))
        exact ⟨ih.mp hbefore,
          (hstep run next (hbefore run List.prefix_rfl)).mp (hall _ List.prefix_rfl)⟩
      · rintro ⟨hrun, hlast⟩ before hinit
        rcases List.prefix_concat_iff.mp hinit with rfl | hinit
        · exact (hstep run next (ih.mpr hrun run List.prefix_rfl)).mpr hlast
        · exact ih.mpr hrun before hinit

end System

end Commands
