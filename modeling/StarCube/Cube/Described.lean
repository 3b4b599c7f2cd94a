import StarCube.Cube
import StarCube.Document.Reader

/-!
Cubes described by documents. Texts are taken as they are, what is missing takes its default if it
has one, and unknown fields are passed over.
-/

namespace StarCube

open Document

namespace Level

def ofDocument : Document → Reading Level :=
  asRecord fun fields =>
    Level.mk <$> required asText "name" fields <*> required asText "column" fields <*>
      defaulted asOptionalText none "order_by" fields

end Level

namespace Hierarchy

def ofDocument : Document → Reading Hierarchy :=
  asRecord fun fields =>
    Hierarchy.mk <$> required asText "name" fields <*>
      required (asList Level.ofDocument) "levels" fields

end Hierarchy

namespace Attribute

def ofDocument : Document → Reading Attribute :=
  asRecord fun fields =>
    Attribute.mk <$> required asText "name" fields <*> required asText "column" fields <*>
      required (asChoice AttributeType.all AttributeType.name) "data_type" fields

end Attribute

namespace Dimension

def ofDocument : Document → Reading Dimension :=
  asRecord fun fields =>
    Dimension.mk <$> required asText "name" fields <*> required asText "table" fields <*>
      required asText "key_column" fields <*> required asText "name_column" fields <*>
      required (asList Hierarchy.ofDocument) "hierarchies" fields <*>
      defaulted (asList Attribute.ofDocument) [] "attributes" fields

end Dimension

namespace MeasureType

def ofDocument : Document → Reading MeasureType :=
  asChoice all name

end MeasureType

namespace Measure

def ofDocument : Document → Reading Measure :=
  asRecord fun fields =>
    Measure.mk <$> required asText "name" fields <*> required asText "column" fields <*>
      required (asChoice Aggregation.all Aggregation.name) "aggregation" fields <*>
      defaulted MeasureType.ofDocument .number "data_type" fields <*>
      defaulted asOptionalText none "format_string" fields

end Measure

namespace CalculatedMember

def ofDocument : Document → Reading CalculatedMember :=
  asRecord fun fields =>
    CalculatedMember.mk <$> required asText "name" fields <*>
      required asText "expression" fields <*>
      defaulted MeasureType.ofDocument .number "data_type" fields <*>
      defaulted asOptionalText none "format_string" fields

end CalculatedMember

namespace Cube

/-- Reads the definition of a cube. -/
def ofDocument : Document → Reading Cube :=
  asRecord fun fields =>
    Cube.mk <$> required asText "name" fields <*> defaulted asText "" "description" fields <*>
      required asText "fact_table" fields <*>
      required (asList Dimension.ofDocument) "dimensions" fields <*>
      required (asList Measure.ofDocument) "measures" fields <*>
      defaulted (asList CalculatedMember.ofDocument) [] "calculated_members" fields

end Cube

end StarCube
