import MarkovDecision.Chain
import MarkovDecision.Document.Datum
import MarkovDecision.Grid.Layout
import MarkovDecision.Simulate.Walk

/-!
# Records of the library

How the parameters of case studies, walks and solutions enter a document, and the dotted paths under
which procedures are known there.
-/

set_option autoImplicit false

namespace MarkovDecision

/-- The procedures that documents mention by path. -/
inductive Procedure where
  | buildChain
  | buildGrid
  | checkRow
  | validateModel
  | moveInGrid

def Procedure.path : Procedure → String
  | .buildChain => "mdp_planning.CaseStudies.Chain.chain.build_chain_mdp"
  | .buildGrid => "mdp_planning.CaseStudies.GridWorld.gridworld.build_gridworld_mdp"
  | .checkRow => "mdp_planning.Models.mdp.check_distribution"
  | .validateModel => "mdp_planning.Models.mdp.MDP.validate"
  | .moveInGrid => "mdp_planning.CaseStudies.GridWorld.gridworld.GridLayout.move"

namespace Datum

def ofChain (chain : Chain Float) : Datum :=
  .record ⟨"ChainConfig", true⟩
    [("advance_prob", .real chain.advanceProbability),
      ("advance_reward", .real chain.advanceReward),
      ("stay_reward", .real chain.stayReward), ("exit_reward", .real chain.exitReward),
      ("discount", .real chain.discount)]

def ofCell (cell : Cell) : Datum := .tuple (cell.coordinates.map .whole)

def ofGrid (grid : Grid Float) : Datum :=
  .record ⟨"GridWorldConfig", true⟩
    [("width", .whole grid.width), ("height", .whole grid.height),
      ("walls", .tuple (grid.walls.map ofCell)),
      ("terminal_rewards",
        .tuple (grid.terminalRewards.map fun entry => .tuple [ofCell entry.1, .real entry.2])),
      ("start", ofCell grid.start), ("step_reward", .real grid.stepReward),
      ("intended_prob", .real grid.intendedProbability), ("discount", .real grid.discount)]

def ofStep (step : Step Float) : Datum :=
  .tuple [ofIdent step.state, ofIdent step.action, ofIdent step.successor, .real step.reward]

def ofRollout (rollout : Rollout Float) : Datum :=
  .record ⟨"RolloutResult", false⟩
    [("trial_id", .whole rollout.trial), ("total_return", .real rollout.total),
      ("steps", .whole rollout.steps), ("terminated", .flag rollout.terminated),
      ("final_state", ofIdent rollout.final),
      ("trajectory", .list (rollout.trajectory.map ofStep))]

/-- A solution of which the utility, the policy and the number of sweeps are known. -/
def ofSolution (utility policy iterations : Datum) : Datum :=
  .record ⟨"ValueIterationResult", false⟩
    [("utility", utility), ("policy", policy), ("iterations", iterations), ("deltas", .list []),
      ("history", .list [])]

end Datum

end MarkovDecision
