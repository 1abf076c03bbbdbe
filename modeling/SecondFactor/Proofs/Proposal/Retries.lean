import SecondFactor.Proofs.Calls
import SecondFactor.Proofs.History
import SecondFactor.Proofs.Proposal.Recheck

/-!
# Trying a Block Again

When the store fails while a block is processed, some of the keys that the block teaches may have
been written and others not, and the block is rejected. It can be tried again: whatever has failed
how often, the store holds what it held at first and some of the keys that the block teaches
(`exists_after_attempts`). The next attempt holds the validators concerned to these keys, to the
same effect, and without failures it completes them. The main statement is `retries_converge`.
-/

namespace SecondFactor.Node

open Proposal

variable {contents : Store} {request : ProcessRequest} {valid : List ValidExtension}
  {known bindings : List Binding}

/-- Attempts at one block, each with its own failing calls. It is enough to tell the calls of an
attempt apart by their keys (`exists_attemptsAt_eq`). -/
def attemptsAt (request : ProcessRequest) (attempts : List Faults) : List (Faults × Operation) :=
  attempts.map fun faults => (faults, .process request)

/-- Whichever calls fail in attempts at one block, there are as many attempts with faults by key
that do the same. -/
theorem exists_attemptsAt_eq (node : Node) (request : ProcessRequest)
    (attempts : List (Nat → Faults)) (contents : Store) :
    ∃ common : List Faults, common.length = attempts.length ∧
      node.run (attemptsAt request common) contents =
        node.runByCall (attempts.map fun faults => (faults, .process request)) contents := by
  obtain ⟨steps, hoperations, hrun⟩ := exists_run_eq_runByCall node
    (attempts.map fun faults => (faults, .process request)) contents
  have hlength := congrArg List.length hoperations
  rw [List.length_map, List.length_map, List.length_map] at hlength
  -- The steps are attempts at the same block.
  have hsteps : attemptsAt request (steps.map Prod.fst) = steps := by
    rw [attemptsAt, List.map_map]
    refine (List.map_congr_left fun step hstep => ?_).trans (List.map_id _)
    have hmem : step.2 ∈ steps.map Prod.snd := List.mem_map_of_mem hstep
    rw [hoperations, List.map_map] at hmem
    obtain ⟨_, -, heq⟩ := List.mem_map.1 hmem
    exact Prod.ext rfl heq
  refine ⟨steps.map Prod.fst, ?_, ?_⟩
  · rw [List.length_map, hlength]
  · rw [hsteps, hrun]

/-- After any attempts at a block that passes the store holds what it held at first and some of what
the block teaches. -/
theorem exists_after_attempts (node : Node)
    (hvalid : (validExtensions (.reliable contents) request.lastCommit).run.value = .ok valid)
    (hstaged : staged node.config (.reliable contents) request = .ok bindings)
    (hknown : known ⊆ bindings) (attempts : List Faults) :
    ∃ written, written ⊆ bindings ∧
      node.after (attemptsAt request attempts) (contents.bindAll known) =
        contents.bindAll written := by
  induction attempts generalizing known with
  | nil => exact ⟨known, hknown, rfl⟩
  | cons faults rest ih =>
    -- One attempt adds some of what the block teaches, and the others start from there.
    obtain ⟨added, hadded, hafter⟩ := exists_written hvalid hstaged hknown faults
    obtain ⟨written, hwritten, hrest⟩ := ih (List.append_subset.2 ⟨hknown, hadded⟩)
    refine ⟨written, hwritten, ?_⟩
    rw [← hrest, ← hafter]
    rfl

/-- A block that would be accepted on a store that does not fail converges: after any number of
attempts at it, whatever calls to the store fail in each of them, an attempt without failures
accepts it and leaves the store that one attempt without failures would have left at first. -/
theorem retries_converge (node : Node) {contents : Store} {request : ProcessRequest}
    (haccept : verdictOn node.config contents request = .accept) (attempts : List Faults) :
    ∃ after,
      ((process node.config request).run (.reliable contents)).value =
        (.accept, .reliable after) ∧
      ((process node.config request).run
          (.reliable (node.after (attemptsAt request attempts) contents))).value =
        (.accept, .reliable after) := by
  obtain ⟨valid, hvalid⟩ := exists_validExtensions contents request.lastCommit
  obtain ⟨bindings, hstaged⟩ := verdictOn_eq_accept_iff.1 haccept
  have hoffered : bindings ⊆ offered valid := staged_subset_offered hvalid hstaged
  obtain ⟨written, hwritten, hpartial⟩ :=
    exists_after_attempts node hvalid hstaged (List.nil_subset bindings) attempts
  rw [Store.bindAll_nil] at hpartial
  refine ⟨contents.bindAll bindings, by rw [value_process_reliable, hstaged], ?_⟩
  rw [hpartial, value_process_bindAll hvalid (List.Subset.trans hwritten hoffered), haccept,
    learnedFrom_of_staged hstaged]
  -- The keys that are there are among those that the block teaches.
  rw [Store.bindAll_append_eq_right contents ((compatible_offered hvalid).subset hoffered)
    hwritten]

/-- After an attempt in which the second of two keys could not be written the block with two first
votes is accepted, and both keys are there. -/
theorem retry_first_votes :
    let after := Store.empty.bindAll
      [⟨.validator firstVoter, votedKey⟩, ⟨.validator secondVoter, votedKey⟩]
    verdictOn {} .empty firstVotes = .accept ∧
      ((process {} firstVotes).run (.reliable
        ((⟨{}, none⟩ : Node).after (attemptsAt firstVotes [secondRefused.faults]) .empty))).value =
          (.accept, .reliable after) := by
  intro after
  obtain ⟨_, hfirst, hretried⟩ :=
    retries_converge ⟨{}, none⟩ verdictOn_firstVotes [secondRefused.faults]
  -- The attempt that would have been enough writes both keys.
  dsimp only at hfirst
  rw [value_process_reliable, staged_firstVotes_reliable] at hfirst
  exact ⟨verdictOn_firstVotes, hretried.trans hfirst.symm⟩

end SecondFactor.Node
