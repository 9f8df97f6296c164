import CommandSet.Protocol.Basic

/-!
# Roles

A command goes from one endpoint to the other, so what one role sends the other receives.

Main definition:

- {lit}`Role.other`: the opposite endpoint.

Main result:

- Theorem {lit}`Protocol.decoded_other`: what one role encodes, the other decodes.
-/

namespace CommandSet

/-- The opposite endpoint. -/
def Role.other : Role → Role
  | .a => .b
  | .b => .a

theorem Command.isReceivable_other (cmd : Command) (role : Role) :
    cmd.isReceivable role.other = cmd.isTransmittable role := by
  unfold isReceivable isTransmittable
  cases cmd.direction <;> cases role <;> rfl

/-- What one role encodes, the other decodes. -/
theorem Protocol.decoded_other (protocol : Protocol) (role : Role) :
    protocol.decoded role.other = protocol.encoded role := by
  simp only [decoded, encoded, Command.isReceivable_other]

end CommandSet
